/-
  IncusDemo.Rejected

  A configuration that is rejected.  `parseConfig` decodes into the global
  `config` and checks it afterwards, so a rejected document leaves behind what
  was decoded of it.  Nothing changes exactly when the document holds nothing
  new: under every key the value that the configuration has there already.
-/

import IncusDemo.Reload

namespace IncusDemo

open Go ServerConfig

/-- A rejected `file` leaves the configuration as it is. -/
def RejectedUnchanged (file : ConfigFile) (config : ServerConfig) : Prop :=
  (parseConfig file config).1 ≠ .ok () → (parseConfig file config).2 = config

-- ============================================================================
-- What a document holds that is new
-- ============================================================================

namespace Node

variable {α : Type} {n : Node α} {empty default x : α}

/-- What the document holds under the key, if anything can be decoded of it, is `x`. -/
def Repeats (n : Node α) (x : α) : Prop := ∀ v, n.decoded = some v → v = x

theorem store_eq_self : n.store x = x ↔ n.Repeats x := by
  unfold store Repeats
  cases n.decoded with
  | some v => simp
  | none => simp

variable [DecidableEq α]

/-- What the document holds under the key is `x` once an empty value is replaced by the default,
    and a key that it leaves out needs no default. -/
def RepeatsOr (n : Node α) (empty default x : α) : Prop :=
  (∀ v, n = .value v → orDefault empty default v = x) ∧ (n = .absent → x = empty → x = default)

theorem orDefault_store_eq_self (h : n.isMistyped = false) :
    orDefault empty default (n.store x) = x ↔ n.RepeatsOr empty default x := by
  cases n with
  | absent =>
    unfold RepeatsOr orDefault
    by_cases hx : x = empty
    · simp [hx, eq_comm]
    · simp [hx]
  | value v => simp [RepeatsOr]
  | partly v => cases h
  | mistyped => cases h

end Node

/-- The terms under the key are `x` without the newlines at their end, and so are the terms of a
    document that leaves the key out. -/
def RepeatsTerms (n : Node String) (x : String) : Prop :=
  (∀ v, n = .value v → trimRight v '\n' = x) ∧ (n = .absent → trimRight x '\n' = x)

/-- The terms stay, with a hash that is theirs. -/
theorem terms_store_eq_self {n : Node String} {x hash : String} (h : n.isMistyped = false) :
    (trimRight (n.store x) '\n' = x ∧ sha256Hex (trimRight (n.store x) '\n') = hash) ↔
      RepeatsTerms n x ∧ hash = sha256Hex x := by
  have hterms : trimRight (n.store x) '\n' = x ↔ RepeatsTerms n x := by
    cases n with
    | absent => simp [RepeatsTerms]
    | value v => simp [RepeatsTerms]
    | partly v => cases h
    | mistyped => cases h
  rw [← hterms]
  refine and_congr_right fun heq => ?_
  rw [heq, eq_comm]

/-- The keys of `config.Server` for which `parseConfig` has no default. -/
def ServerRepeats (d : ConfigDoc) (s : Server) : Prop :=
  d.blocklist.Repeats s.blocklist ∧
  (d.feedbackEnabled.Repeats s.feedback.enabled ∧ d.feedbackTimeout.Repeats s.feedback.timeout ∧
    d.emailServer.Repeats s.feedback.email.server ∧ d.emailFrom.Repeats s.feedback.email.from ∧
    d.emailTo.Repeats s.feedback.email.to ∧ d.emailSubject.Repeats s.feedback.email.subject) ∧
  (d.limitsTotal.Repeats s.limits.total ∧ d.limitsIP.Repeats s.limits.ip) ∧
  (d.maintenanceEnabled.Repeats s.maintenance.enabled ∧
    d.maintenanceMessage.Repeats s.maintenance.message) ∧
  (d.proxyAddress.Repeats s.proxy.address ∧ d.proxyCertificate.Repeats s.proxy.certificate ∧
    d.proxyKey.Repeats s.proxy.key) ∧
  d.statisticsKeys.Repeats s.statisticsKeys

/-- The keys of `config.Incus`. -/
def IncusRepeats (d : ConfigDoc) (i : IncusSection) : Prop :=
  d.clientCertificate.Repeats i.clientCertificate ∧ d.clientKey.Repeats i.clientKey ∧
  d.project.Repeats i.project ∧ d.serverCertificate.Repeats i.serverCertificate ∧
  d.serverURL.Repeats i.serverURL ∧ d.target.Repeats i.target

/-- The keys of `config.Instance` for which `parseConfig` has no default. -/
def InstanceRepeats (d : ConfigDoc) (i : InstanceSection) : Prop :=
  (d.allocateCount.Repeats i.allocate.count ∧ d.allocateExpiry.Repeats i.allocate.expiry) ∧
  (d.sourceInstance.Repeats i.source.instance ∧ d.sourceImage.Repeats i.source.image) ∧
  d.profiles.Repeats i.profiles ∧
  (d.limitsCPU.Repeats i.limits.cpu ∧ d.limitsDisk.Repeats i.limits.disk ∧
    d.limitsProcesses.Repeats i.limits.processes ∧ d.limitsMemory.Repeats i.limits.memory)

/-- The keys of `config.Session` for which `parseConfig` has no default. -/
def SessionRepeats (d : ConfigDoc) (s : SessionSection) : Prop :=
  d.readyCommand.Repeats s.readyCommand ∧ d.sessionExpiry.Repeats s.expiry ∧
  d.consoleOnly.Repeats s.consoleOnly ∧ d.network.Repeats s.network

/-- The document repeats the configuration, but for the keys with a default. -/
def PlainRepeats (d : ConfigDoc) (c : ServerConfig) : Prop :=
  ServerRepeats d c.server ∧ IncusRepeats d c.incus ∧ InstanceRepeats d c.instance ∧
  SessionRepeats d c.session

/-- What can be decoded of the document repeats the configuration. -/
def DecodedRepeats (d : ConfigDoc) (c : ServerConfig) : Prop :=
  PlainRepeats d c ∧ d.apiAddress.Repeats c.server.apiAddress ∧ d.terms.Repeats c.server.terms ∧
  d.sourceType.Repeats c.instance.source.instanceType ∧ d.command.Repeats c.session.command

/-- The document repeats the configuration, which has all defaults and the hash of its terms. -/
def ParsedRepeats (d : ConfigDoc) (c : ServerConfig) : Prop :=
  PlainRepeats d c ∧ d.apiAddress.RepeatsOr "" ":8080" c.server.apiAddress ∧
  RepeatsTerms d.terms c.server.terms ∧ c.server.termsHash = sha256Hex c.server.terms ∧
  d.sourceType.RepeatsOr "" "container" c.instance.source.instanceType ∧
  d.command.RepeatsOr none (some ["bash"]) c.session.command

/-- With the document the configuration names no source, or two. -/
def SourceMissingOrDouble (d : ConfigDoc) (c : ServerConfig) : Prop :=
  d.sourceInstance.store c.instance.source.instance = "" ↔
    d.sourceImage.store c.instance.source.image = ""

/-- A document that cannot be decoded in full, or leaves no source or two, holds nothing new. -/
def NothingNew (file : ConfigFile) (c : ServerConfig) : Prop :=
  ∀ d, file = .doc d →
    (d.mistyped = true → DecodedRepeats d c) ∧
    (d.mistyped = false → SourceMissingOrDouble d c → ParsedRepeats d c)

section Rejected

variable {d : ConfigDoc} {c : ServerConfig}

theorem unmarshal_eq_self : unmarshal d c = c ↔ DecodedRepeats d c := by
  obtain ⟨⟨_, _, ⟨_, _, ⟨_, _, _, _⟩⟩, ⟨_, _⟩, ⟨_, _⟩, ⟨_, _, _⟩, _, _, _⟩, ⟨_, _, _, _, _, _⟩,
    ⟨⟨_, _⟩, ⟨_, _, _⟩, _, ⟨_, _, _, _⟩⟩, ⟨_, _, _, _, _⟩⟩ := c
  simp only [unmarshal, DecodedRepeats, PlainRepeats, ServerRepeats, IncusRepeats, InstanceRepeats,
    SessionRepeats, ServerConfig.mk.injEq, Server.mk.injEq, FeedbackSection.mk.injEq,
    Email.mk.injEq, ServerLimits.mk.injEq, Maintenance.mk.injEq, ProxySection.mk.injEq,
    IncusSection.mk.injEq, InstanceSection.mk.injEq, Allocate.mk.injEq, Source.mk.injEq,
    InstanceLimits.mk.injEq, SessionSection.mk.injEq, Node.store_eq_self, and_true]
  tauto

theorem applyDefaults_eq_self (h : d.mistyped = false) :
    applyDefaults (unmarshal d c) = c ↔ ParsedRepeats d c := by
  simp only [ConfigDoc.mistyped, Bool.or_eq_false_iff] at h
  obtain ⟨⟨_, _, ⟨_, _, ⟨_, _, _, _⟩⟩, ⟨_, _⟩, ⟨_, _⟩, ⟨_, _, _⟩, _, _, _⟩, ⟨_, _, _, _, _, _⟩,
    ⟨⟨_, _⟩, ⟨_, _, _⟩, _, ⟨_, _, _, _⟩⟩, ⟨_, _, _, _, _⟩⟩ := c
  simp only [applyDefaults, unmarshal, ParsedRepeats, PlainRepeats, ServerRepeats, IncusRepeats,
    InstanceRepeats, SessionRepeats, ServerConfig.mk.injEq, Server.mk.injEq,
    FeedbackSection.mk.injEq, Email.mk.injEq, ServerLimits.mk.injEq, Maintenance.mk.injEq,
    ProxySection.mk.injEq, IncusSection.mk.injEq, InstanceSection.mk.injEq, Allocate.mk.injEq,
    Source.mk.injEq, InstanceLimits.mk.injEq, SessionSection.mk.injEq, Node.store_eq_self,
    Node.orDefault_store_eq_self, terms_store_eq_self, h]
  clear h
  tauto

/-- The checks at the end of `parseConfig` fail exactly when there is no source, or two. -/
theorem checkSource_rejects :
    checkSource (applyDefaults (unmarshal d c)) ≠ .ok () ↔ SourceMissingOrDouble d c := by
  have hsource : (applyDefaults (unmarshal d c)).instance.source.instance =
      d.sourceInstance.store c.instance.source.instance := rfl
  have himage : (applyDefaults (unmarshal d c)).instance.source.image =
      d.sourceImage.store c.instance.source.image := rfl
  unfold checkSource SourceMissingOrDouble
  rw [hsource, himage]
  by_cases hs : d.sourceInstance.store c.instance.source.instance = "" <;>
    by_cases hi : d.sourceImage.store c.instance.source.image = "" <;> simp [hs, hi]

end Rejected

/-- A file that `parseConfig` rejects leaves every configuration as it was, exactly when it is not
    a document, or is accepted, or holds nothing new. -/
theorem rejected_unchanged_iff (file : ConfigFile) (config : ServerConfig) :
    RejectedUnchanged file config ↔ NothingNew file config := by
  unfold RejectedUnchanged NothingNew
  cases file with
  | doc d =>
    simp only [ConfigFile.doc.injEq, forall_eq']
    cases hd : d.mistyped with
    | true => simp [parseConfig, hd, unmarshal_eq_self]
    | false => simp [parseConfig_doc hd, applyDefaults_eq_self hd, checkSource_rejects]
  | _ => simp [parseConfig]

/-- A running server reads a file with new terms and a limit that is no number.  The terms it
    serves are new, and the hash that it demands of a request is still that of the old ones. -/
theorem rejected_changes_terms : ¬ ∀ changes file, RejectedUnchanged file (configAfter changes) := by
  intro hall
  have h := hall [.parse (.doc { sourceImage := .value "debian", terms := .value "old" })]
    (.doc { sourceImage := .value "debian", terms := .value "new", limitsTotal := .mistyped })
    nofun
  have hterms := congrArg (fun c => c.server.terms) h
  revert hterms
  decide

-- Of a list that the field cannot take the elements are dropped, and the old ones with them.
example (c : ServerConfig) :
    (parseConfig (.doc { blocklist := .partly (some []) }) c).2.server.blocklist = some [] := rfl

-- After the rejected file, no request can name the hash of the terms that are served.
example : (configAfter [.parse (.doc { sourceImage := .value "debian", terms := .value "old" }),
      .parse (.doc { terms := .value "new", limitsTotal := .mistyped })]).server.termsHash ≠
    sha256Hex "new" := by decide +kernel

end IncusDemo

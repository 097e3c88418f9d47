/-
  IncusDemo.Reload

  Reloading the configuration.  `parseConfig` decodes over the configuration
  that is there, so a key that the new document leaves out keeps what an
  earlier document has put there.  A reload does what a restart with the same
  file does exactly when nothing is left under the keys the file leaves out.
-/

import IncusDemo.Config

namespace IncusDemo

open Go ServerConfig

/-- A process as far as its configuration goes: the global `config`, and the certificate and the
    key that `run` has generated for the proxy, if it has. -/
structure ProcessConfig where
  config : ServerConfig
  generated : Option (String × String)

/-- A process that has read no file. -/
def ProcessConfig.start : ProcessConfig := { config := .zero, generated := none }

/-- What changes the global `config` of a process. -/
inductive ConfigChange where
  | parse (file : ConfigFile)
  | generate (cert key : String)

/-- A call of `parseConfig`, or the part of `run` that makes a certificate for the proxy before it
    starts to listen. -/
def ConfigChange.apply (p : ProcessConfig) : ConfigChange → ProcessConfig
  | .parse file => { p with config := (parseConfig file p.config).2 }
  | .generate cert key =>
    if p.config.server.proxy.address ≠ "" ∧ p.config.server.proxy.certificate = "" ∧
        p.config.server.proxy.key = "" then
      { config := { p.config with server := { p.config.server with
          proxy := { p.config.server.proxy with certificate := cert, key := key } } }
        generated := some (cert, key) }
    else p

/-- The process after the changes. -/
def processAfter (changes : List ConfigChange) : ProcessConfig :=
  changes.foldl ConfigChange.apply .start

/-- The global `config` of a process after the changes. -/
def configAfter (changes : List ConfigChange) : ServerConfig := (processAfter changes).config

/-- The section without the proxy's certificate and key. -/
def ServerConfig.Server.withoutKeys (s : Server) : Server :=
  { s with proxy := { s.proxy with certificate := "", key := "" } }

/-- The configuration without the proxy's certificate and key. -/
def ServerConfig.withoutKeys (c : ServerConfig) : ServerConfig :=
  { c with server := c.server.withoutKeys }

/-- `x` is `fresh`, or it is what `run` has generated. -/
def SameOrGenerated (generated : Option String) (x fresh : String) : Prop :=
  x = fresh ∨ generated = some x

/-- The proxies have the same certificate and key, but for what `run` has generated. -/
def SameKeys (generated : Option (String × String)) (p fresh : ProxySection) : Prop :=
  SameOrGenerated (generated.map Prod.fst) p.certificate fresh.certificate ∧
  SameOrGenerated (generated.map Prod.snd) p.key fresh.key

/-- Reading `file` does in the process `p` what it does in one that starts with `file`. -/
def ReloadsFresh (file : ConfigFile) (p : ProcessConfig) : Prop :=
  (parseConfig file p.config).1 = .ok () ∧
  (parseConfig file p.config).2.withoutKeys = (parseConfig file .zero).2.withoutKeys ∧
  SameKeys p.generated (parseConfig file p.config).2.server.proxy
    (parseConfig file .zero).2.server.proxy

-- ============================================================================
-- What is left of earlier files
-- ============================================================================

/-- Under a key that the document leaves out, `config.Server` holds nothing of its own. -/
def ServerCleared (d : ConfigDoc) (s : Server) : Prop :=
  (d.apiAddress = .absent → s.apiAddress = "" ∨ s.apiAddress = ":8080") ∧
  (d.blocklist = .absent → s.blocklist = none) ∧
  ((d.feedbackEnabled = .absent → s.feedback.enabled = false) ∧
    (d.feedbackTimeout = .absent → s.feedback.timeout = 0) ∧
    (d.emailServer = .absent → s.feedback.email.server = "") ∧
    (d.emailFrom = .absent → s.feedback.email.from = "") ∧
    (d.emailTo = .absent → s.feedback.email.to = "") ∧
    (d.emailSubject = .absent → s.feedback.email.subject = "")) ∧
  ((d.limitsTotal = .absent → s.limits.total = 0) ∧ (d.limitsIP = .absent → s.limits.ip = 0)) ∧
  ((d.maintenanceEnabled = .absent → s.maintenance.enabled = false) ∧
    (d.maintenanceMessage = .absent → s.maintenance.message = "")) ∧
  (d.proxyAddress = .absent → s.proxy.address = "") ∧
  (d.statisticsKeys = .absent → s.statisticsKeys = none) ∧
  (d.terms = .absent → trimRight s.terms '\n' = "")

/-- Under a key that the document leaves out, `config.Incus` holds nothing. -/
def IncusCleared (d : ConfigDoc) (i : IncusSection) : Prop :=
  (d.clientCertificate = .absent → i.clientCertificate = "") ∧
  (d.clientKey = .absent → i.clientKey = "") ∧
  (d.project = .absent → i.project = "") ∧
  (d.serverCertificate = .absent → i.serverCertificate = "") ∧
  (d.serverURL = .absent → i.serverURL = "") ∧
  (d.target = .absent → i.target = "")

/-- Under a key that the document leaves out, `config.Instance` holds nothing of its own. -/
def InstanceCleared (d : ConfigDoc) (i : InstanceSection) : Prop :=
  ((d.allocateCount = .absent → i.allocate.count = 0) ∧
    (d.allocateExpiry = .absent → i.allocate.expiry = 0)) ∧
  ((d.sourceInstance = .absent → i.source.instance = "") ∧
    (d.sourceImage = .absent → i.source.image = "") ∧
    (d.sourceType = .absent →
      i.source.instanceType = "" ∨ i.source.instanceType = "container")) ∧
  (d.profiles = .absent → i.profiles = none) ∧
  ((d.limitsCPU = .absent → i.limits.cpu = 0) ∧ (d.limitsDisk = .absent → i.limits.disk = "") ∧
    (d.limitsProcesses = .absent → i.limits.processes = 0) ∧
    (d.limitsMemory = .absent → i.limits.memory = ""))

/-- Under a key that the document leaves out, `config.Session` holds nothing of its own. -/
def SessionCleared (d : ConfigDoc) (s : SessionSection) : Prop :=
  (d.command = .absent → s.command = none ∨ s.command = some ["bash"]) ∧
  (d.readyCommand = .absent → s.readyCommand = none) ∧
  (d.sessionExpiry = .absent → s.expiry = 0) ∧
  (d.consoleOnly = .absent → s.consoleOnly = false) ∧
  (d.network = .absent → s.network = "")

/-- Where the document leaves out the proxy's certificate or key, there is none or a generated
    one. -/
def KeysCleared (d : ConfigDoc) (generated : Option (String × String)) (p : ProxySection) : Prop :=
  (d.proxyCertificate = .absent →
    SameOrGenerated (generated.map Prod.fst) p.certificate "") ∧
  (d.proxyKey = .absent → SameOrGenerated (generated.map Prod.snd) p.key "")

/-- Under every key that the file leaves out the configuration holds the zero value, the default
    that `parseConfig` puts there, or what `run` has generated. -/
def Cleared (file : ConfigFile) (p : ProcessConfig) : Prop :=
  ∀ d, file = .doc d → ServerCleared d p.config.server ∧ IncusCleared d p.config.incus ∧
    InstanceCleared d p.config.instance ∧ SessionCleared d p.config.session ∧
    KeysCleared d p.generated p.config.server.proxy

section Fields

variable {α : Type} [DecidableEq α] {n : Node α} {empty default x : α}

theorem orDefault_empty (empty default : α) : orDefault empty default empty = default := if_pos rfl

/-- A field that is empty or holds its default has the default after the defaults are applied,
    and no other has. -/
theorem orDefault_eq_default : orDefault empty default x = default ↔ x = empty ∨ x = default := by
  unfold orDefault
  by_cases h : x = empty
  · simp [h]
  · simp [h]

/-- A field with a default, read over two configurations of which one is fresh. -/
theorem orDefault_store (h : n.isMistyped = false) :
    orDefault empty default (n.store x) = orDefault empty default (n.store empty) ↔
      (n = .absent → x = empty ∨ x = default) := by
  cases n with
  | absent => simp [orDefault_empty, orDefault_eq_default]
  | value v => simp
  | partly v => cases h
  | mistyped => cases h

/-- A key of the proxy, read over two configurations of which one is fresh. -/
theorem sameOrGenerated_store {n : Node String} {generated : Option String} {x : String}
    (h : n.isMistyped = false) :
    SameOrGenerated generated (n.store x) (n.store "") ↔
      (n = .absent → SameOrGenerated generated x "") := by
  cases n with
  | absent => simp
  | value v => simp [SameOrGenerated]
  | partly v => cases h
  | mistyped => cases h

end Fields

/-- The terms with their hash, read over two configurations of which one is fresh. -/
theorem terms_store {n : Node String} {x : String} (h : n.isMistyped = false) :
    (trimRight (n.store x) '\n' = trimRight (n.store "") '\n' ∧
      sha256Hex (trimRight (n.store x) '\n') = sha256Hex (trimRight (n.store "") '\n')) ↔
      (n = .absent → trimRight x '\n' = "") := by
  have hhash : ∀ {a b : String}, (a = b ∧ sha256Hex a = sha256Hex b) ↔ a = b :=
    ⟨fun h => h.1, fun h => ⟨h, congrArg _ h⟩⟩
  rw [hhash]
  cases n with
  | absent => simp
  | value v => simp
  | partly v => cases h
  | mistyped => cases h

section Sections

variable {d : ConfigDoc} {c : ServerConfig}

theorem server_eq_iff (h : d.mistyped = false) :
    (applyDefaults (unmarshal d c)).server.withoutKeys =
      (applyDefaults (unmarshal d .zero)).server.withoutKeys ↔ ServerCleared d c.server := by
  simp only [ConfigDoc.mistyped, Bool.or_eq_false_iff] at h
  simp only [applyDefaults, unmarshal, ServerConfig.zero, Server.withoutKeys, ServerCleared,
    Server.mk.injEq, FeedbackSection.mk.injEq, Email.mk.injEq, ServerLimits.mk.injEq,
    Maintenance.mk.injEq, ProxySection.mk.injEq, Node.store_eq_store, orDefault_store,
    terms_store, h, and_true]

theorem incus_eq_iff (h : d.mistyped = false) :
    (applyDefaults (unmarshal d c)).incus = (applyDefaults (unmarshal d .zero)).incus ↔
      IncusCleared d c.incus := by
  simp only [ConfigDoc.mistyped, Bool.or_eq_false_iff] at h
  simp only [applyDefaults, unmarshal, ServerConfig.zero, IncusCleared, IncusSection.mk.injEq,
    Node.store_eq_store, h]

theorem instance_eq_iff (h : d.mistyped = false) :
    (applyDefaults (unmarshal d c)).instance = (applyDefaults (unmarshal d .zero)).instance ↔
      InstanceCleared d c.instance := by
  simp only [ConfigDoc.mistyped, Bool.or_eq_false_iff] at h
  simp only [applyDefaults, unmarshal, ServerConfig.zero, InstanceCleared,
    InstanceSection.mk.injEq, Allocate.mk.injEq, Source.mk.injEq, InstanceLimits.mk.injEq,
    Node.store_eq_store, orDefault_store, h]

theorem session_eq_iff (h : d.mistyped = false) :
    (applyDefaults (unmarshal d c)).session = (applyDefaults (unmarshal d .zero)).session ↔
      SessionCleared d c.session := by
  simp only [ConfigDoc.mistyped, Bool.or_eq_false_iff] at h
  simp only [applyDefaults, unmarshal, ServerConfig.zero, SessionCleared,
    SessionSection.mk.injEq, Node.store_eq_store, orDefault_store, h]

theorem sameKeys_iff {generated : Option (String × String)} (h : d.mistyped = false) :
    SameKeys generated (applyDefaults (unmarshal d c)).server.proxy
      (applyDefaults (unmarshal d .zero)).server.proxy ↔
      KeysCleared d generated c.server.proxy := by
  simp only [ConfigDoc.mistyped, Bool.or_eq_false_iff] at h
  simp only [SameKeys, KeysCleared, applyDefaults, unmarshal, ServerConfig.zero,
    sameOrGenerated_store, h]

/-- Equality of configurations, section by section. -/
theorem withoutKeys_eq_iff {a b : ServerConfig} :
    a.withoutKeys = b.withoutKeys ↔ a.server.withoutKeys = b.server.withoutKeys ∧
      a.incus = b.incus ∧ a.instance = b.instance ∧ a.session = b.session := by
  simp only [withoutKeys, ServerConfig.mk.injEq]

/-- The checks at the end of `parseConfig` do not look at the certificate. -/
theorem checkSource_congr {a b : ServerConfig} (h : a.withoutKeys = b.withoutKeys) :
    checkSource a = checkSource b := by
  have hsource := congrArg checkSource h
  exact hsource

/-- A file that a process accepts is a document without mistakes. -/
theorem doc_of_accepted {file : ConfigFile} (h : (parseConfig file c).1 = .ok ()) :
    ∃ d, file = .doc d ∧ d.mistyped = false := by
  cases file with
  | doc d =>
    refine ⟨d, rfl, ?_⟩
    by_contra hm
    rw [Bool.not_eq_false] at hm
    simp [parseConfig, hm] at h
  | _ => cases h

/-- What `parseConfig` does with a document without mistakes. -/
theorem parseConfig_doc (h : d.mistyped = false) :
    parseConfig (.doc d) c =
      (checkSource (applyDefaults (unmarshal d c)), applyDefaults (unmarshal d c)) := by
  simp only [parseConfig, h, Bool.false_eq_true, if_false]

end Sections

/-- After any changes to the configuration of a process, a file that a new process accepts is
    accepted too and leaves the same configuration, but for a generated certificate and key,
    exactly when nothing of the earlier files is left under the keys that it leaves out. -/
theorem reload_is_fresh_iff (changes : List ConfigChange) (file : ConfigFile)
    (hok : (parseConfig file .zero).1 = .ok ()) :
    ReloadsFresh file (processAfter changes) ↔ Cleared file (processAfter changes) := by
  obtain ⟨d, rfl, hd⟩ := doc_of_accepted hok
  unfold ReloadsFresh
  rw [parseConfig_doc hd, parseConfig_doc hd, withoutKeys_eq_iff, server_eq_iff hd,
    incus_eq_iff hd, instance_eq_iff hd, session_eq_iff hd, sameKeys_iff hd]
  constructor
  · rintro ⟨-, ⟨hs, hi, hn, hss⟩, hk⟩ d' heq
    cases heq
    exact ⟨hs, hi, hn, hss, hk⟩
  · intro hcleared
    obtain ⟨hs, hi, hn, hss, hk⟩ := hcleared d rfl
    refine ⟨?_, ⟨hs, hi, hn, hss⟩, hk⟩
    rw [parseConfig_doc hd] at hok
    refine (checkSource_congr (withoutKeys_eq_iff.mpr ⟨?_, ?_, ?_, ?_⟩)).trans hok
    · exact (server_eq_iff hd).mpr hs
    · exact (incus_eq_iff hd).mpr hi
    · exact (instance_eq_iff hd).mpr hn
    · exact (session_eq_iff hd).mpr hss

/-- A limit is changed while the proxy has a generated certificate. -/
theorem reload_is_fresh_limit :
    ReloadsFresh
      (.doc
        { sourceImage := .value "debian", proxyAddress := .value ":8081"
          limitsTotal := .value 10 })
      (processAfter
        [.parse (.doc
          { sourceImage := .value "debian", proxyAddress := .value ":8081"
            limitsTotal := .value 5 }),
         .generate "cert" "key"]) := by
  apply (reload_is_fresh_iff _ _ rfl).mpr
  rintro d heq
  cases heq
  refine ⟨?_, ?_, ?_, ?_, ?_⟩ <;>
    simp [ServerCleared, IncusCleared, InstanceCleared, SessionCleared, KeysCleared,
      SameOrGenerated, processAfter, ProcessConfig.start, ConfigChange.apply, parseConfig,
      ConfigDoc.mistyped, Node.isMistyped, unmarshal, applyDefaults, ServerConfig.zero, orDefault]

-- A certificate that an earlier file has configured is no generated one, and stays.
example : (configAfter [
      .parse (.doc { sourceImage := .value "debian", proxyCertificate := .value "cert" }),
      .parse (.doc { sourceImage := .value "debian" })]).server.proxy.certificate = "cert" := by
  decide +kernel

/-- A change from a source instance to an image is refused, for the instance is still there. -/
theorem reload_keeps_removed : ¬ ∀ changes file, (parseConfig file .zero).1 = .ok () →
    ReloadsFresh file (processAfter changes) := by
  intro hall
  have h := (hall [.parse (.doc { sourceInstance := .value "template" })]
    (.doc { sourceImage := .value "debian" }) rfl).1
  cases h

end IncusDemo

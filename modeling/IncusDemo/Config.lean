/-
  IncusDemo.Config

  The server's configuration (config.go) and how it is read (`parseConfig` of
  main.go).  Every field a document can set has a key; a document gives each
  key a `Node`, and `unmarshal` stores the values a document holds over the
  configuration that was there before, as `yaml.Unmarshal(data, &config)` does.
-/

import IncusDemo.Go.Std
import IncusDemo.Go.Sha256

namespace IncusDemo

open Go

-- ============================================================================
-- serverConfig
-- ============================================================================

/-- A Go slice of strings; `none` is the nil slice. -/
abbrev Strings := Option (List String)

/-- The elements of a slice, of which nil has none. -/
def Strings.elems (s : Strings) : List String := s.getD []

namespace ServerConfig

/-- `config.Server.Feedback.Email`. -/
structure Email where
  server : String
  «from» : String
  «to» : String
  subject : String
  deriving DecidableEq

/-- `config.Server.Feedback`. -/
structure FeedbackSection where
  enabled : Bool
  timeout : Int
  email : Email
  deriving DecidableEq

/-- `config.Server.Limits`. -/
structure ServerLimits where
  total : Int
  ip : Int
  deriving DecidableEq

/-- `config.Server.Maintenance`. -/
structure Maintenance where
  enabled : Bool
  message : String
  deriving DecidableEq

/-- `config.Server.Proxy`. -/
structure ProxySection where
  address : String
  certificate : String
  key : String
  deriving DecidableEq

/-- `config.Server`, with the API address and the statistics keys in place. -/
structure Server where
  apiAddress : String
  blocklist : Strings
  feedback : FeedbackSection
  limits : ServerLimits
  maintenance : Maintenance
  proxy : ProxySection
  statisticsKeys : Strings
  terms : String
  termsHash : String
  deriving DecidableEq

/-- `config.Incus`. -/
structure IncusSection where
  clientCertificate : String
  clientKey : String
  project : String
  serverCertificate : String
  serverURL : String
  target : String
  deriving DecidableEq

/-- `config.Instance.Allocate`. -/
structure Allocate where
  count : Int
  expiry : Int
  deriving DecidableEq

/-- `config.Instance.Source`. -/
structure Source where
  «instance» : String
  image : String
  instanceType : String
  deriving DecidableEq

/-- `config.Instance.Limits`. -/
structure InstanceLimits where
  cpu : Int
  disk : String
  processes : Int
  memory : String
  deriving DecidableEq

/-- `config.Instance`. -/
structure InstanceSection where
  allocate : Allocate
  source : Source
  profiles : Strings
  limits : InstanceLimits
  deriving DecidableEq

/-- `config.Session`. -/
structure SessionSection where
  command : Strings
  readyCommand : Strings
  expiry : Int
  consoleOnly : Bool
  network : String
  deriving DecidableEq

end ServerConfig

open ServerConfig in
/-- `serverConfig`, the type of the global `config`. -/
structure ServerConfig where
  server : Server
  incus : IncusSection
  «instance» : InstanceSection
  session : SessionSection
  deriving DecidableEq

/-- The value of the global `config` when the process starts. -/
def ServerConfig.zero : ServerConfig where
  server :=
    { apiAddress := "", blocklist := none
      feedback := { enabled := false, timeout := 0
                    email := { server := "", «from» := "", «to» := "", subject := "" } }
      limits := { total := 0, ip := 0 }
      maintenance := { enabled := false, message := "" }
      proxy := { address := "", certificate := "", key := "" }
      statisticsKeys := none, terms := "", termsHash := "" }
  incus :=
    { clientCertificate := "", clientKey := "", project := "", serverCertificate := ""
      serverURL := "", target := "" }
  «instance» :=
    { allocate := { count := 0, expiry := 0 }
      source := { «instance» := "", image := "", instanceType := "" }
      profiles := none
      limits := { cpu := 0, disk := "", processes := 0, memory := "" } }
  session :=
    { command := none, readyCommand := none, expiry := 0, consoleOnly := false, network := "" }

-- ============================================================================
-- config.yaml
-- ============================================================================

/-- What decoding finds under one key: nothing, a value of the field's type, a list of which
    the field can take the elements `v` and no others, or something it cannot take. -/
inductive Node (α : Type) where
  | absent
  | value (v : α)
  | partly (v : α)
  | mistyped
  deriving DecidableEq

namespace Node

variable {α : Type}

/-- What is stored into the field, if anything.  A list is emptied before its elements are
    decoded, so the elements that the field can take are stored beside the error. -/
def decoded (n : Node α) : Option α :=
  match n with
  | .value v | .partly v => some v
  | .absent | .mistyped => none

/-- The field after decoding: stored when the document has a value for it. -/
def store (n : Node α) (old : α) : α := n.decoded.getD old

/-- The document has a value the field cannot take, or can take in part only. -/
def isMistyped (n : Node α) : Bool :=
  match n with
  | .partly _ | .mistyped => true
  | .absent | .value _ => false

@[simp] theorem store_value (v old : α) : (Node.value v).store old = v := rfl

@[simp] theorem store_absent (old : α) : (Node.absent : Node α).store old = old := rfl

/-- A well-typed node makes two earlier values agree exactly when it holds a value or
    they agreed before. -/
theorem store_eq_store {n : Node α} (h : n.isMistyped = false) {x y : α} :
    n.store x = n.store y ↔ (n = .absent → x = y) := by
  cases n with
  | absent => simp
  | value v => simp
  | partly v => cases h
  | mistyped => cases h

end Node

/-- A YAML document for `serverConfig`, key by key. -/
structure ConfigDoc where
  apiAddress : Node String := .absent
  blocklist : Node Strings := .absent
  feedbackEnabled : Node Bool := .absent
  feedbackTimeout : Node Int := .absent
  emailServer : Node String := .absent
  emailFrom : Node String := .absent
  emailTo : Node String := .absent
  emailSubject : Node String := .absent
  limitsTotal : Node Int := .absent
  limitsIP : Node Int := .absent
  maintenanceEnabled : Node Bool := .absent
  maintenanceMessage : Node String := .absent
  proxyAddress : Node String := .absent
  proxyCertificate : Node String := .absent
  proxyKey : Node String := .absent
  statisticsKeys : Node Strings := .absent
  terms : Node String := .absent
  clientCertificate : Node String := .absent
  clientKey : Node String := .absent
  project : Node String := .absent
  serverCertificate : Node String := .absent
  serverURL : Node String := .absent
  target : Node String := .absent
  allocateCount : Node Int := .absent
  allocateExpiry : Node Int := .absent
  sourceInstance : Node String := .absent
  sourceImage : Node String := .absent
  sourceType : Node String := .absent
  profiles : Node Strings := .absent
  limitsCPU : Node Int := .absent
  limitsDisk : Node String := .absent
  limitsProcesses : Node Int := .absent
  limitsMemory : Node String := .absent
  command : Node Strings := .absent
  readyCommand : Node Strings := .absent
  sessionExpiry : Node Int := .absent
  consoleOnly : Node Bool := .absent
  network : Node String := .absent
  /-- An error of the decoder that is at none of these keys: a section that is no mapping or
      has a key twice, of which nothing is stored, or a tag at which the decoder gives up. -/
  badSection : Bool := false
  deriving DecidableEq

namespace ConfigDoc

/-- Some key holds a value its field cannot take, or some section cannot be decoded. -/
def mistyped (d : ConfigDoc) : Bool :=
  d.apiAddress.isMistyped || d.blocklist.isMistyped || d.feedbackEnabled.isMistyped ||
  d.feedbackTimeout.isMistyped || d.emailServer.isMistyped || d.emailFrom.isMistyped ||
  d.emailTo.isMistyped || d.emailSubject.isMistyped || d.limitsTotal.isMistyped ||
  d.limitsIP.isMistyped || d.maintenanceEnabled.isMistyped || d.maintenanceMessage.isMistyped ||
  d.proxyAddress.isMistyped || d.proxyCertificate.isMistyped || d.proxyKey.isMistyped ||
  d.statisticsKeys.isMistyped || d.terms.isMistyped || d.clientCertificate.isMistyped ||
  d.clientKey.isMistyped || d.project.isMistyped || d.serverCertificate.isMistyped ||
  d.serverURL.isMistyped || d.target.isMistyped || d.allocateCount.isMistyped ||
  d.allocateExpiry.isMistyped || d.sourceInstance.isMistyped || d.sourceImage.isMistyped ||
  d.sourceType.isMistyped || d.profiles.isMistyped || d.limitsCPU.isMistyped ||
  d.limitsDisk.isMistyped || d.limitsProcesses.isMistyped || d.limitsMemory.isMistyped ||
  d.command.isMistyped || d.readyCommand.isMistyped || d.sessionExpiry.isMistyped ||
  d.consoleOnly.isMistyped || d.network.isMistyped || d.badSection

end ConfigDoc

/-- `yaml.Unmarshal` of a document into an existing configuration. -/
def unmarshal (d : ConfigDoc) (c : ServerConfig) : ServerConfig where
  server :=
    { apiAddress := d.apiAddress.store c.server.apiAddress
      blocklist := d.blocklist.store c.server.blocklist
      feedback :=
        { enabled := d.feedbackEnabled.store c.server.feedback.enabled
          timeout := d.feedbackTimeout.store c.server.feedback.timeout
          email :=
            { server := d.emailServer.store c.server.feedback.email.server
              «from» := d.emailFrom.store c.server.feedback.email.from
              «to» := d.emailTo.store c.server.feedback.email.«to»
              subject := d.emailSubject.store c.server.feedback.email.subject } }
      limits :=
        { total := d.limitsTotal.store c.server.limits.total
          ip := d.limitsIP.store c.server.limits.ip }
      maintenance :=
        { enabled := d.maintenanceEnabled.store c.server.maintenance.enabled
          message := d.maintenanceMessage.store c.server.maintenance.message }
      proxy :=
        { address := d.proxyAddress.store c.server.proxy.address
          certificate := d.proxyCertificate.store c.server.proxy.certificate
          key := d.proxyKey.store c.server.proxy.key }
      statisticsKeys := d.statisticsKeys.store c.server.statisticsKeys
      terms := d.terms.store c.server.terms
      termsHash := c.server.termsHash }
  incus :=
    { clientCertificate := d.clientCertificate.store c.incus.clientCertificate
      clientKey := d.clientKey.store c.incus.clientKey
      project := d.project.store c.incus.project
      serverCertificate := d.serverCertificate.store c.incus.serverCertificate
      serverURL := d.serverURL.store c.incus.serverURL
      target := d.target.store c.incus.target }
  «instance» :=
    { allocate :=
        { count := d.allocateCount.store c.instance.allocate.count
          expiry := d.allocateExpiry.store c.instance.allocate.expiry }
      source :=
        { «instance» := d.sourceInstance.store c.instance.source.instance
          image := d.sourceImage.store c.instance.source.image
          instanceType := d.sourceType.store c.instance.source.instanceType }
      profiles := d.profiles.store c.instance.profiles
      limits :=
        { cpu := d.limitsCPU.store c.instance.limits.cpu
          disk := d.limitsDisk.store c.instance.limits.disk
          processes := d.limitsProcesses.store c.instance.limits.processes
          memory := d.limitsMemory.store c.instance.limits.memory } }
  session :=
    { command := d.command.store c.session.command
      readyCommand := d.readyCommand.store c.session.readyCommand
      expiry := d.sessionExpiry.store c.session.expiry
      consoleOnly := d.consoleOnly.store c.session.consoleOnly
      network := d.network.store c.session.network }

/-- The state of `config.yaml` when it is read. -/
inductive ConfigFile where
  | missing
  | unreadable (err : Error)
  | malformed (err : Error)
  | doc (d : ConfigDoc)
  deriving DecidableEq

/-- The value of a field, or its default when the field was left empty. -/
def orDefault {α : Type} [DecidableEq α] (empty default x : α) : α := if x = empty then default else x

/-- The part of `parseConfig` after decoding: defaults, and the terms with their hash. -/
def applyDefaults (c : ServerConfig) : ServerConfig :=
  let terms := trimRight c.server.terms '\n'
  { c with
    server := { c.server with
      apiAddress := orDefault "" ":8080" c.server.apiAddress
      terms := terms
      termsHash := sha256Hex terms }
    «instance» := { c.instance with
      source := { c.instance.source with
        instanceType := orDefault "" "container" c.instance.source.instanceType } }
    session := { c.session with
      command := orDefault none (some ["bash"]) c.session.command } }

/-- The checks at the end of `parseConfig`. -/
def checkSource (c : ServerConfig) : Except Error Unit :=
  if c.instance.source.instance = "" ∧ c.instance.source.image = "" then
    .error "No instance or image specified in configuration"
  else if c.instance.source.instance ≠ "" ∧ c.instance.source.image ≠ "" then
    .error "Only one of instance or image can be specified as the source"
  else .ok ()

/-- `parseConfig`: its result, and the global `config` it leaves. -/
def parseConfig (file : ConfigFile) (config : ServerConfig) : Except Error Unit × ServerConfig :=
  match file with
  | .missing => (.error "The configuration file (config.yaml) doesn't exist.", config)
  | .unreadable err => (.error ("Unable to read the configuration: " ++ err), config)
  | .malformed err => (.error ("Unable to parse the configuration: " ++ err), config)
  | .doc d =>
    let config := unmarshal d config
    if d.mistyped then
      (.error "Unable to parse the configuration: yaml: unmarshal errors", config)
    else
      let config := applyDefaults config
      (checkSource config, config)

end IncusDemo

import AdvisoryLedger.Settings.Reading
import AdvisoryLedger.Table

namespace AdvisoryLedger

abbrev Environment := Table String String

structure Settings where
  environment : String := "development"
  feedUrl : Option String := some "https://services.nvd.nist.gov/rest/json/cves/2.0"
  apiKey : Option String := none
  apiKeyIsEncrypted : Bool := false
  pageSize : Int := 2000
  timeout : Int := 120
  secretKey : Option String := none
  /-- Records that may wait to be written; zero sets no bound. -/
  queueBound : Int := 0
  databaseHost : String := "localhost"
  databasePort : Int := 5432
  databaseName : String := "vulnerability_db"
  databaseUser : String := "vuln_user"
  databasePassword : Option String := none
  poolSize : Int := 10
  logLevel : String := "INFO"
  logFile : Option String := none
  deriving DecidableEq, Repr

namespace Settings

instance : Inhabited Settings := ⟨{}⟩

/-- A value, and the settings that were refused on the way to it. -/
structure Checked (α : Type) where
  value : α
  faults : List (String × SettingFault) := []

instance : Monad Checked where
  pure a := ⟨a, []⟩
  bind x f :=
    let y := f x.value
    ⟨y.value, x.faults ++ y.faults⟩

def check {α : Type} (given : Table String Json) (name : String)
    (read : Json → Except SettingFault α) (default : α) : Checked α :=
  match given.get? name with
  | none => ⟨default, []⟩
  | some v =>
    match read v with
    | .ok a => ⟨a, []⟩
    | .error fault => ⟨default, [(name, fault)]⟩

/-- All settings, in the order of their names. -/
def checkAll (given : Table String Json) : Checked Settings := do
  let d : Settings := {}
  let databaseHost ← check given "DB_HOST" Setting.text d.databaseHost
  let databaseName ← check given "DB_NAME" Setting.text d.databaseName
  let databasePassword ← check given "DB_PASSWORD" Setting.optionalText d.databasePassword
  let poolSize ← check given "DB_POOL_SIZE" Setting.integer d.poolSize
  let databasePort ← check given "DB_PORT" Setting.integer d.databasePort
  let databaseUser ← check given "DB_USER" Setting.text d.databaseUser
  let environment ← check given "ENVIRONMENT" Setting.text d.environment
  let logFile ← check given "LOG_FILE" Setting.optionalText d.logFile
  let logLevel ← check given "LOG_LEVEL" Setting.text d.logLevel
  let queueBound ← check given "MIRROR_QUEUE_MAX_SIZE" Setting.integer d.queueBound
  let apiKey ← check given "NVD_API_KEY" Setting.optionalText d.apiKey
  let apiKeyIsEncrypted ← check given "NVD_API_KEY_ENCRYPTED" Setting.flag d.apiKeyIsEncrypted
  let feedUrl ← check given "NVD_API_URL" Setting.optionalText d.feedUrl
  let timeout ← check given "NVD_REQUEST_TIMEOUT" Setting.integer d.timeout
  let pageSize ← check given "NVD_RESULTS_PER_PAGE" Setting.integer d.pageSize
  let secretKey ← check given "SECRET_KEY" Setting.optionalText d.secretKey
  pure {
    environment, feedUrl, apiKey, apiKeyIsEncrypted, pageSize, timeout, secretKey, queueBound
    databaseHost, databasePort, databaseName, databaseUser, databasePassword, poolSize, logLevel, logFile }

def given (environment : Environment) (values : Table String Json) : Table String Json :=
  values ++ environment.map fun row => (row.1, .text row.2)

def read (environment : Environment) (values : Table String Json := []) : Except Failure Settings :=
  let x := checkAll (given environment values)
  if x.faults.isEmpty then .ok x.value else .error (.invalidSettings x.faults)

def toTable (s : Settings) : Table String Json := [
  ("ENVIRONMENT", .text s.environment), ("NVD_API_URL", .ofText? s.feedUrl),
  ("NVD_API_KEY", .ofText? s.apiKey), ("NVD_API_KEY_ENCRYPTED", .flag s.apiKeyIsEncrypted),
  ("NVD_RESULTS_PER_PAGE", .int s.pageSize), ("NVD_REQUEST_TIMEOUT", .int s.timeout),
  ("SECRET_KEY", .ofText? s.secretKey), ("MIRROR_QUEUE_MAX_SIZE", .int s.queueBound),
  ("DB_HOST", .text s.databaseHost), ("DB_PORT", .int s.databasePort),
  ("DB_NAME", .text s.databaseName), ("DB_USER", .text s.databaseUser),
  ("DB_PASSWORD", .ofText? s.databasePassword), ("DB_POOL_SIZE", .int s.poolSize),
  ("LOG_LEVEL", .text s.logLevel), ("LOG_FILE", .ofText? s.logFile)]

end Settings

end AdvisoryLedger

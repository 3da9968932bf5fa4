import AdvisoryLedger.Settings.Basic
import AdvisoryLedger.Text.Case
import AdvisoryLedger.Text.Numeral

namespace AdvisoryLedger

namespace Environment

def nonempty? (vars : Environment) (name : String) : Option String :=
  (vars.get? name).filter fun value => !value.isEmpty

/-- A variable that has to hold a whole number if it is there. -/
def integer? (vars : Environment) (name : String) : Except Failure (Option Int) :=
  match vars.nonempty? name with
  | none => .ok none
  | some value =>
    match Text.readInt? value with
    | some n => .ok (some n)
    | none => .error (.notAnInteger name value)

end Environment

structure DatabaseConfig where
  /-- The kind of environment: development, production and so on. -/
  environment : String
  host : String
  port : Int
  database : String
  user : String
  password : String
  poolSize : Int
  minConnections : Option Int
  deriving DecidableEq, Repr

namespace DatabaseConfig

def extraVariables : List String := ["DB_MIN_CONNECTIONS"]

/-- Variables that may hold the password, in the order in which they are asked. -/
def passwordVariables (environment : String) : List String :=
  let suffix := Text.upper environment
  ["DB_PASSWORD_" ++ suffix, "POSTGRES_PASSWORD_" ++ suffix, "POSTGRES_PASSWORD"]

def passwordFor (s : Settings) (vars : Environment) (environment : String) : String :=
  let given := (vars.nonempty? "DB_PASSWORD").getD (s.databasePassword.getD "")
  if given.isEmpty then ((passwordVariables environment).findSome? vars.nonempty?).getD "" else given

def missing (c : DatabaseConfig) : List String :=
  [("host", c.host.isEmpty), ("port", c.port == 0), ("database", c.database.isEmpty),
    ("user", c.user.isEmpty), ("password", c.password.isEmpty)].filterMap fun field =>
      if field.2 then some field.1 else none

def environmentKind (s : Settings) (asked : Option String) : String :=
  (asked.filter fun e => !e.isEmpty).getD s.environment

def resolve (s : Settings) (vars : Environment) (asked : Option String) :
    Except Failure DatabaseConfig := do
  let environment := environmentKind s asked
  let port ← vars.integer? "DB_PORT"
  let poolSize ← vars.integer? "DB_POOL_SIZE"
  let minConnections ← vars.integer? "DB_MIN_CONNECTIONS"
  let c : DatabaseConfig := {
    environment, minConnections
    host := (vars.nonempty? "DB_HOST").getD s.databaseHost
    port := port.getD s.databasePort
    database := (vars.nonempty? "DB_NAME").getD s.databaseName
    user := (vars.nonempty? "DB_USER").getD s.databaseUser
    password := passwordFor s vars environment
    poolSize := poolSize.getD s.poolSize }
  if c.missing.isEmpty then .ok c else .error (.missingDatabaseFields c.missing)

/-- The configuration when settings may be left out; then the environment gives them as well. -/
def load (vars : Environment) (asked : Option String) (settings : Option Settings) :
    Except Failure DatabaseConfig := do
  let s ← match settings with
    | some s => .ok s
    | none => Settings.read vars
  resolve s vars asked

def toJson (c : DatabaseConfig) : Json := .object (
  [("environment", .text c.environment), ("host", .text c.host), ("port", .int c.port),
    ("database", .text c.database), ("user", .text c.user), ("password", .text c.password),
    ("pool_size", .int c.poolSize)] ++
  match c.minConnections with
  | some n => [("min_connections", .int n)]
  | none => [])

/-- The configuration that is given from outside, unless there is nothing in it. -/
def choose (vars : Environment) (asked : Option String) (given : Json) : Except Failure Json :=
  if given.isTruthy then .ok given else (load vars asked none).map toJson

end DatabaseConfig

end AdvisoryLedger

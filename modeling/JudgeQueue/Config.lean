import JudgeQueue.Error
import JudgeQueue.Text.Numeral
import JudgeQueue.Transaction
/-!
# Configuration

The settings of the service, read from environment variables. A variable
that is not set leaves its setting at the default, and the first variable
that is wrong or missing is named.
-/

namespace JudgeQueue

/-- Where rows are kept. -/
inductive StoreBackend
  | postgres
  | memory
deriving DecidableEq, Repr

namespace StoreBackend

/-- The name of a backend. -/
def name : StoreBackend → String
  | postgres => "postgres"
  | memory => "memory"

/-- The backend of a name, in any case. -/
def ofName? (text : String) : Option StoreBackend :=
  match text.map Char.toLower with
  | "postgres" | "postgresql" => some postgres
  | "memory" => some memory
  | _ => none

end StoreBackend

/-- Where the service listens. -/
structure ServerSettings where
  host : String := "0.0.0.0"
  port : Nat := 8080
  logLevel : String := "info"
deriving DecidableEq, Repr

/-- Which database is used. Only one of the backends needs its address. -/
structure DatabaseSettings where
  backend : StoreBackend := .memory
  url : Option String := none
  maxConnections : Nat := 20
deriving DecidableEq, Repr

/-- Where notifications are sent, if anywhere. -/
structure NotifySettings where
  url : Option String := none
  channel : String := "judgeflow:events"
deriving DecidableEq, Repr

/-- How judgings are handed out and recovered. -/
structure DispatchSettings where
  scripts : DefaultScripts := ⟨"run", "compare"⟩
  /-- The timeout of a judgehost in seconds; zero for none. -/
  judgehostTimeout : Nat := 0
  /-- The seconds between two sweeps. -/
  sweepInterval : Nat := 30
  eventBuffer : Nat := 1024
deriving DecidableEq, Repr

/-- The settings of the service. -/
structure Config where
  server : ServerSettings := {}
  database : DatabaseSettings := {}
  notify : NotifySettings := {}
  blobPath : String := "/data/blobs"
  dispatch : DispatchSettings := {}
deriving DecidableEq, Repr

/-- Why the settings cannot be read. -/
inductive ConfigError
  | missing (key : String)
  | invalid (key : String)
deriving DecidableEq, Repr

/-- States what is wrong. -/
def ConfigError.message : ConfigError → String
  | missing key => "Missing required environment variable: " ++ key
  | invalid key => "Invalid value for environment variable: " ++ key

/-- The backend of a name, or a complaint about the setting. -/
def StoreBackend.parse (text : String) : Except ConfigError StoreBackend :=
  match StoreBackend.ofName? text with
  | some backend => .ok backend
  | none => .error (.invalid "STORE_BACKEND")

/-- The values of the variables that are set. -/
abbrev Environment := String → Option String

namespace Environment

variable (env : Environment)

/-- The value of a variable, or a default. -/
def read {α : Type} (key : String) (parse : String → Option α) (fallback : α) :
    Except ConfigError α :=
  match env key with
  | none => .ok fallback
  | some text =>
    match parse text with
    | some a => .ok a
    | none => .error (.invalid key)

/-- A number below a power of two, or a default. -/
def readBits (key : String) (bits fallback : Nat) : Except ConfigError Nat :=
  env.read key (Numeral.unsignedBelow? (Nat.pow 2 bits)) fallback

/-- A text, or a default. -/
def text (key fallback : String) : String :=
  (env key).getD fallback

/-- Where the service listens. -/
def server : Except ConfigError ServerSettings := do
  let defaults : ServerSettings := {}
  let port ← env.readBits "SERVER_PORT" 16 defaults.port
  .ok ⟨env.text "SERVER_HOST" defaults.host, port, env.text "RUST_LOG" defaults.logLevel⟩

/-- Which database is used. -/
def database : Except ConfigError DatabaseSettings := do
  let defaults : DatabaseSettings := {}
  let backend ← env.read "STORE_BACKEND" StoreBackend.ofName? .postgres
  let url := env "DATABASE_URL"
  if backend = .postgres ∧ url = none then .error (.missing "DATABASE_URL")
  let maxConnections ← env.readBits "DATABASE_MAX_CONNECTIONS" 32 defaults.maxConnections
  .ok ⟨backend, url, maxConnections⟩

/-- Where notifications are sent. An empty address is none. -/
def notify : NotifySettings :=
  let defaults : NotifySettings := {}
  ⟨(env "REDIS_URL").filter fun url => !url.isEmpty, env.text "NOTIFY_CHANNEL" defaults.channel⟩

/-- How judgings are handed out. The buffer of events is not empty, and
sweeps are a second apart or more. -/
def dispatch : Except ConfigError DispatchSettings := do
  let defaults : DispatchSettings := {}
  let eventBuffer ← env.readBits "EVENT_BUFFER" 64 defaults.eventBuffer
  if eventBuffer = 0 then .error (.invalid "EVENT_BUFFER")
  let judgehostTimeout ← env.readBits "JUDGEHOST_TIMEOUT_SECS" 64 defaults.judgehostTimeout
  let sweepInterval ← env.readBits "SWEEP_INTERVAL_SECS" 64 defaults.sweepInterval
  .ok {
    scripts := ⟨env.text "DEFAULT_RUN_SCRIPT" defaults.scripts.run,
      env.text "DEFAULT_COMPARE_SCRIPT" defaults.scripts.compare⟩
    judgehostTimeout
    sweepInterval := max sweepInterval 1
    eventBuffer }

end Environment

namespace Config

/-- Reads the settings. -/
def ofEnvironment (env : Environment) : Except ConfigError Config := do
  let defaults : Config := {}
  let server ← env.server
  let database ← env.database
  let dispatch ← env.dispatch
  .ok {
    server
    database
    notify := env.notify
    blobPath := env.text "BLOB_PATH" defaults.blobPath
    dispatch }

/-- Why a database cannot be connected to, if its settings lack the
address. -/
def connectionError? (c : Config) : Option Error :=
  if c.database.url.isNone then
    some (.ofDatabase
      (.other "error with configuration: DATABASE_URL is required for the postgres backend"))
  else none

end Config

end JudgeQueue

import ContestPlatform.Json.Value
import ContestPlatform.Text.Decimal
import ContestPlatform.Text.Utf8

/-!
# Settings

The settings of the platform, read from environment variables. A variable whose bytes are not UTF-8
counts as absent. The variables are read in a fixed order, and the first flaw decides.
-/

namespace ContestPlatform

/-- How the log is written. -/
inductive LogFormat where
  | pretty
  | json
deriving DecidableEq, Inhabited

/-- Where content is kept. -/
inductive ContentBackend where
  | filesystem
  | memory
  | bucket
deriving DecidableEq, Inhabited

/-- The settings of a bucket. -/
structure BucketSettings where
  bucket : String
  region : String
  /-- The address of the service, if it is not the usual one. -/
  endpoint : Option String
  /-- The name of the bucket stands in the path. -/
  pathStyle : Bool
  accessKey : Option String
  secretKey : Option String
deriving DecidableEq, Inhabited

/-- The settings of the platform. -/
structure Settings where
  host : String
  port : Nat
  logFilter : String
  logFormat : LogFormat
  requestTimeout : Nat
  databaseUrl : String
  maxConnections : Nat
  backend : ContentBackend
  rootPath : String
  /-- Present when content is kept in a bucket. -/
  bucket : Option BucketSettings
deriving DecidableEq, Inhabited

/-- Why settings were refused. -/
inductive SettingsFault where
  /-- A variable is absent that has no default. -/
  | missing (name : String)
  /-- The value of a variable makes no sense. -/
  | invalid (name : String)
deriving DecidableEq, Inhabited

/-- What a fault says. -/
def SettingsFault.message : SettingsFault → String
  | .missing name => "Missing required environment variable: " ++ name
  | .invalid name => "Invalid value for environment variable: " ++ name

/-- The name of a log format. -/
def LogFormat.name : LogFormat → String
  | .pretty => "pretty"
  | .json => "json"

/-- The name of a backend. -/
def ContentBackend.name : ContentBackend → String
  | .filesystem => "filesystem"
  | .memory => "memory"
  | .bucket => "s3"

namespace Settings

/-! ## Single variables -/

/-- The names and the bytes of environment variables. -/
abbrev Environment : Type :=
  List (String × List UInt8)

/-- The value of a variable, if it is present and UTF-8. -/
def valueOf? (env : Environment) (name : String) : Option String :=
  (env.lookup name).bind Text.Utf8.decode?

/-- A variable that has to be there. -/
def required (env : Environment) (name : String) : Except SettingsFault String :=
  match valueOf? env name with
  | some value => .ok value
  | none => .error (.missing name)

/-- A variable that is read, with a default for its absence. -/
def readOr {α : Type} (env : Environment) (name : String) (default : α)
    (read : String → Option α) : Except SettingsFault α :=
  match valueOf? env name with
  | none => .ok default
  | some value =>
    match read value with
    | some a => .ok a
    | none => .error (.invalid name)

/-- A natural number below a bound. -/
def number (bound : Nat) (value : String) : Option Nat :=
  Text.Decimal.unsigned? bound value.toList

/-- One of a table of words, in any letter case. -/
def word {α : Type} (table : List (String × α)) (value : String) : Option α :=
  table.lookup (String.ofList (value.toList.map Char.toLower))

/-- The words for log formats. -/
def logFormats : List (String × LogFormat) :=
  [("pretty", .pretty), ("text", .pretty), ("json", .json)]

/-- The words for backends. -/
def backends : List (String × ContentBackend) :=
  [("filesystem", .filesystem), ("fs", .filesystem), ("memory", .memory), ("s3", .bucket)]

/-- The words for yes and no. -/
def flags : List (String × Bool) :=
  [("true", true), ("1", true), ("yes", true), ("false", false), ("0", false), ("no", false)]

/-! ## All settings -/

/-- Read the settings of a bucket. -/
def readBucket (env : Environment) : Except SettingsFault BucketSettings := do
  let bucket ← required env "S3_BUCKET"
  let pathStyle ← readOr env "S3_PATH_STYLE" false (word flags)
  return {
    bucket
    region := (valueOf? env "S3_REGION").getD "us-east-1"
    endpoint := (valueOf? env "S3_ENDPOINT").filter (· != "")
    pathStyle
    accessKey := valueOf? env "S3_ACCESS_KEY"
    secretKey := valueOf? env "S3_SECRET_KEY" }

/-- Read the settings. -/
def ofEnvironment (env : Environment) : Except SettingsFault Settings := do
  let requestTimeout ← readOr env "REQUEST_TIMEOUT_SECS" 30 (number UInt64.size)
  let port ← readOr env "SERVER_PORT" 8080 (number UInt16.size)
  let logFormat ← readOr env "LOG_FORMAT" .pretty (word logFormats)
  let databaseUrl ← required env "DATABASE_URL"
  let maxConnections ← readOr env "DATABASE_MAX_CONNECTIONS" 20 (number UInt32.size)
  let backend ← readOr env "CONTENT_STORE_BACKEND" .filesystem (word backends)
  let bucket ←
    match backend with
    | .bucket => (readBucket env).map some
    | .filesystem | .memory => pure none
  return {
    host := (valueOf? env "SERVER_HOST").getD "0.0.0.0"
    port
    logFilter := (valueOf? env "RUST_LOG").getD "info"
    logFormat
    requestTimeout
    databaseUrl
    maxConnections
    backend
    rootPath := (valueOf? env "CONTENT_STORE_PATH").getD "/data/content"
    bucket }

/-! ## JSON -/

/-- The JSON form of the settings of a bucket. -/
def bucketToJson (s : BucketSettings) : Json :=
  .object
    [("bucket", .text s.bucket),
     ("region", .text s.region),
     ("endpoint", Json.orNull .text s.endpoint),
     ("path_style", .bool s.pathStyle),
     ("access_key", Json.orNull .text s.accessKey),
     ("secret_key", Json.orNull .text s.secretKey)]

/-- The JSON form of settings. -/
def toJson (s : Settings) : Json :=
  .object
    [("host", .text s.host),
     ("port", Json.nat s.port),
     ("rust_log", .text s.logFilter),
     ("log_format", .text s.logFormat.name),
     ("request_timeout_secs", Json.nat s.requestTimeout),
     ("database_url", .text s.databaseUrl),
     ("max_connections", Json.nat s.maxConnections),
     ("backend", .text s.backend.name),
     ("root_path", .text s.rootPath),
     ("s3", Json.orNull bucketToJson s.bucket)]

end Settings

end ContestPlatform

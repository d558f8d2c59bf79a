/-
The configuration of an agent: its settings with their defaults, read from a document, and checked. A
document that cannot be read goes before a setting that does not fit, the first of which goes before one
that is missing, and that before a setting that makes no sense.
-/
import Telemetry.Address
import Telemetry.Clock
import Telemetry.Envelope.Basic
import Telemetry.Retry.Policy
import Telemetry.Toml.Document

namespace Telemetry

open Number (intText)
open Text.Utf8 (Octets)

/-- The settings of an agent. -/
structure Config where
  address : Address
  pollSeconds : UInt64 := 2
  reportSeconds : UInt64 := 10
  batchSize : UInt64 := 10
  rateLimit : UInt64 := 2
  maxRetries : UInt16 := 3
  retryInitialMillis : UInt64 := 1000
  retryIncrementMillis : UInt64 := 2000
  timeoutSeconds : UInt64 := 10
  key : Option String := none
deriving DecidableEq, Repr

namespace Config

/-- The names that mean something. -/
inductive Setting where
  | serverAddress
  | pollSeconds
  | reportSeconds
  | batchSize
  | rateLimit
  | maxRetries
  | retryInitialMillis
  | retryIncrementMillis
  | timeoutSeconds
  | key
deriving DecidableEq, Repr

namespace Setting

def word : Setting → String
  | serverAddress => "server_address"
  | pollSeconds => "poll_interval_secs"
  | reportSeconds => "report_interval_secs"
  | batchSize => "batch_size"
  | rateLimit => "rate_limit"
  | maxRetries => "max_retries"
  | retryInitialMillis => "retry_initial_delay_ms"
  | retryIncrementMillis => "retry_increment_ms"
  | timeoutSeconds => "request_timeout_secs"
  | key => "key"

def all : List Setting :=
  [serverAddress, pollSeconds, reportSeconds, batchSize, rateLimit, maxRetries, retryInitialMillis,
    retryIncrementMillis, timeoutSeconds, key]

/-- The setting of that name. -/
def ofWord? (word : String) : Option Setting := all.find? (·.word == word)

end Setting

/-- What a setting has to be. -/
inductive Expected where
  | text
  | number
  | count
  | small
deriving DecidableEq, Repr

def Expected.word : Expected → String
  | text => "a string"
  | number => "u64"
  | count => "usize"
  | small => "u16"

/-- What is wrong with the settings of a document. -/
inductive Complaint where
  | wrongType (found : String) (expected : Expected)
  | outOfRange (n : Int64) (expected : Expected)
  | missing (s : Setting)
deriving DecidableEq, Repr

def Complaint.message : Complaint → String
  | wrongType found expected => "invalid type: " ++ found ++ ", expected " ++ expected.word
  | outOfRange n expected =>
    "invalid value: integer `" ++ intText n.toInt ++ "`, expected " ++ expected.word
  | missing s => "missing field `" ++ s.word ++ "`"

/-- What makes no sense in settings that could be read. -/
inductive Nonsense where
  | blankAddress
  | noPollInterval
  | noReportInterval
deriving DecidableEq, Repr

def Nonsense.message : Nonsense → String
  | blankAddress => "server_address must not be empty"
  | noPollInterval => "poll_interval_secs must be greater than zero"
  | noReportInterval => "report_interval_secs must be greater than zero"

/-- Why there is no configuration. -/
inductive Fault where
  | unreadable (path : String)
  | malformed
  | unfit (c : Complaint)
  | senseless (n : Nonsense)
deriving DecidableEq, Repr

/-- The complaint about a file that cannot be read as text. -/
def unreadableMessage (path : String) : String := "failed to read config file " ++ path

/-- A text. -/
def readText : Toml.Value → Except Complaint String
  | .text s => .ok s
  | v => .error (.wrongType v.describe .text)

/-- A number that is not negative and below a limit. -/
def readNumber (expected : Expected) (limit : Nat) : Toml.Value → Except Complaint Nat
  | .integer n =>
    if 0 ≤ n.toInt ∧ n.toInt < limit then .ok n.toInt.toNat else .error (.outOfRange n expected)
  | v => .error (.wrongType v.describe expected)

/-- A number of 64 bits. -/
def readLong (expected : Expected) (v : Toml.Value) : Except Complaint UInt64 :=
  (readNumber expected (0x10000000000000000) v).map UInt64.ofNat

/-- A number of 16 bits. -/
def readShort (expected : Expected) (v : Toml.Value) : Except Complaint UInt16 :=
  (readNumber expected (0x10000) v).map UInt16.ofNat

/-- The settings that were read so far: the address apart, which has no default. -/
structure Draft where
  address : Option Address := none
  others : Config := { address := ⟨""⟩ }
deriving DecidableEq, Repr

/-- Reads the value of a setting. -/
def Draft.read (d : Draft) (s : Setting) (v : Toml.Value) : Except Complaint Draft :=
  let c := d.others
  let keep (c : Config) : Draft := { d with others := c }
  match s with
  | .serverAddress => (readText v).map fun x => { d with address := some ⟨x⟩ }
  | .pollSeconds => (readLong .number v).map fun x => keep { c with pollSeconds := x }
  | .reportSeconds => (readLong .number v).map fun x => keep { c with reportSeconds := x }
  | .batchSize => (readLong .count v).map fun x => keep { c with batchSize := x }
  | .rateLimit => (readLong .count v).map fun x => keep { c with rateLimit := x }
  | .maxRetries => (readShort .small v).map fun x => keep { c with maxRetries := x }
  | .retryInitialMillis => (readLong .number v).map fun x => keep { c with retryInitialMillis := x }
  | .retryIncrementMillis =>
    (readLong .number v).map fun x => keep { c with retryIncrementMillis := x }
  | .timeoutSeconds => (readLong .number v).map fun x => keep { c with timeoutSeconds := x }
  | .key => (readText v).map fun x => keep { c with key := some x }

/-- Reads entries in their order; those with other names are passed over. -/
def Draft.readAll (d : Draft) : Toml.Entries → Except Complaint Draft
  | [] => .ok d
  | (name, v) :: rest =>
    match Setting.ofWord? name with
    | none => d.readAll rest
    | some s => match d.read s v with
      | .ok d => d.readAll rest
      | .error c => .error c

/-- The settings that the entries of a document make. -/
def ofEntries (es : Toml.Entries) : Except Complaint Config :=
  match Draft.readAll {} es with
  | .error c => .error c
  | .ok d => match d.address with
    | none => .error (.missing .serverAddress)
    | some address => .ok { d.others with address }

/-- What makes no sense in a configuration, if anything does not. -/
def check (c : Config) : Except Nonsense Unit :=
  if c.address.isBlank then .error .blankAddress
  else if c.pollSeconds = 0 then .error .noPollInterval
  else if c.reportSeconds = 0 then .error .noReportInterval
  else .ok ()

/-- The configuration that a document holds. -/
def read (text : String) : Except Fault Config :=
  match Toml.read? text.toList with
  | none => .error .malformed
  | some es => match ofEntries es with
    | .error c => .error (.unfit c)
    | .ok config => match config.check with
      | .error n => .error (.senseless n)
      | .ok () => .ok config

/-- The configuration that a file holds; none are the octets of a file that cannot be read. -/
def load (path : String) (content : Option Octets) : Except Fault Config :=
  match content.bind Text.Utf8.decode with
  | none => .error (.unreadable path)
  | some cs => read (String.ofList cs)

/-! ## What the settings mean -/

def pollInterval (c : Config) : Span := Span.ofSeconds c.pollSeconds.toNat

def reportInterval (c : Config) : Span := Span.ofSeconds c.reportSeconds.toNat

def requestTimeout (c : Config) : Span := Span.ofSeconds c.timeoutSeconds.toNat

/-- How deliveries are repeated. -/
def policy (c : Config) : Retry.Policy where
  maxRetries := c.maxRetries.toNat
  initial := c.retryInitialMillis.toNat
  increment := c.retryIncrementMillis.toNat

/-- The key to sign with, if there is one. -/
def signingKey (c : Config) : Option Octets := Envelope.signingKey (c.key.map Text.Utf8.ofString)

end Config

end Telemetry

import Ensemble.Client.Retry
import Ensemble.Text.Blank
import Ensemble.Text.Decimal

/-! # Client configuration

A client is configured by a connect string, a session timeout, a delay between attempts on
successive servers, and a retry policy.

A connect string lists servers separated by `,` and may end in a chroot, which starts at the
first `/`. Entries that are blank are skipped, and at least one server must remain. The chroot
`/` means none; any other chroot must be a node path.

A server entry is trimmed of blanks. `[h]` is a bracketed host, which may hold `:`; text after
`]` gives the `portNumber` when it starts with `:` and is ignored otherwise. Any other entry
splits at its last `:` into host and `portNumber`. The host must not be empty; the `portNumber` is
an optional `+` and decimal digits up to 65535, and 2181 when the entry names none. Writing a server back brackets a host that holds
`:`, so that it reads back the same.

`ConfigSettings.build` fills in defaults and checks in a fixed order: the connect string, then
the session timeout, then the first backoff, each of the two positive.
-/

namespace Ensemble

/-- Why a configuration is refused. -/
inductive ConfigError where
  | emptyAddress
  | unterminatedHost (entry : String)
  | missingHost (entry : String)
  | badPort (entry : String)
  | noServers
  | badChroot (cause : Error)
  | zeroSessionTimeout
  | zeroBackoff

/-- What a configuration error says. -/
def ConfigError.message (e : ConfigError) : String :=
  "configuration error: " ++
    match e with
    | .emptyAddress => "server address must not be empty"
    | .unterminatedHost s => "unterminated IPv6 literal: " ++ s
    | .missingHost s => "missing host in: " ++ s
    | .badPort s => "invalid port in: " ++ s
    | .noServers => "connect string must name at least one server"
    | .badChroot cause => "invalid chroot: " ++ cause.message
    | .zeroSessionTimeout => "session_timeout must be positive"
    | .zeroBackoff => "initial_backoff must be positive"

/-- One server of an ensemble: a host name or address literal, and the number it listens on. -/
structure ServerAddress where
  host : String
  portNumber : UInt16
  deriving DecidableEq, Repr

namespace ServerAddress

/-- The `portNumber` of a server entry that names none. -/
def defaultPort : UInt16 := 2181

/-- The `portNumber` a numeral names: an optional `+`, then one or more decimal digits, at most 65535. -/
def portOf? (cs : List Char) : Option UInt16 :=
  let digits := match cs with
    | '+' :: rest => rest
    | rest => rest
  if digits.isEmpty || !digits.all Char.isDigit then none
  else
    let n : Nat := digits.foldl (fun n d => 10 * n + (d.toNat - '0'.toNat)) 0
    if n < 65536 then some n.toUInt16 else none

/-- The parts before and after the last `sep`, if there is one. -/
def splitAtLast (sep : Char) (cs : List Char) : Option (List Char × List Char) :=
  match cs.reverse.span (· ≠ sep) with
  | (_, []) => none
  | (after, _ :: before) => some (before.reverse, after.reverse)

/-- The host of a trimmed entry, and the text of its `portNumber` if it has one. -/
def split (cs : List Char) : Except ConfigError (List Char × Option (List Char)) :=
  match cs with
  | '[' :: rest =>
    match rest.span (· ≠ ']') with
    | (_, []) => .error (.unterminatedHost (String.ofList cs))
    | (host, _ :: after) =>
      .ok (host, match after with
        | ':' :: num => some num
        | _ => none)
  | _ =>
    match splitAtLast ':' cs with
    | some (host, num) => .ok (host, some num)
    | none => .ok (cs, none)

/-- Reads one server entry. -/
def parse (entry : String) : Except ConfigError ServerAddress := do
  let cs := Blank.trimChars entry.toList
  if cs.isEmpty then throw .emptyAddress
  let (host, num) ← split cs
  if host.isEmpty then throw (.missingHost (String.ofList cs))
  match num with
  | none => pure ⟨String.ofList host, defaultPort⟩
  | some text =>
    match portOf? text with
    | some n => pure ⟨String.ofList host, n⟩
    | none => throw (.badPort (String.ofList cs))

/-- A server as an entry of a connect string; a host holding `:` is bracketed. -/
def display (a : ServerAddress) : String :=
  let num := Decimal.ofNat a.portNumber.toNat
  if a.host.toList.contains ':' then "[" ++ a.host ++ "]:" ++ num
  else a.host ++ ":" ++ num

end ServerAddress

/-- The servers of an ensemble in the order given, and the chroot under which the client
works. -/
structure ConnectString where
  servers : List ServerAddress
  chroot : Option String := none
  deriving DecidableEq, Repr

namespace ConnectString

/-- Reads a connect string. -/
def parse (s : String) : Except ConfigError ConnectString := do
  let (hosts, chroot) := s.toList.span (· ≠ '/')
  let entries := (hosts.splitOn ',').filter fun e => !(Blank.trimChars e).isEmpty
  let servers ← entries.mapM fun e => ServerAddress.parse (String.ofList e)
  if servers.isEmpty then throw .noServers
  match chroot with
  | [] | ['/'] => pure ⟨servers, none⟩
  | path =>
    match Path.validate (String.ofList path) with
    | .ok () => pure ⟨servers, some (String.ofList path)⟩
    | .error e => throw (.badChroot e)

/-- A connect string written back: the servers separated by `,`, then the chroot. -/
def display (c : ConnectString) : String :=
  ",".intercalate (c.servers.map ServerAddress.display) ++ c.chroot.getD ""

end ConnectString

/-- A checked client configuration; times are in milliseconds. -/
structure ClientConfig where
  connectString : ConnectString := ⟨[⟨"localhost", ServerAddress.defaultPort⟩], none⟩
  sessionTimeout : Nat := 30000
  spinDelay : Nat := 1000
  retry : RetryPolicy := {}
  deriving DecidableEq, Repr

/-- The chroot of a configuration. -/
def ClientConfig.chroot (c : ClientConfig) : Option String :=
  c.connectString.chroot

/-- The settings a configuration is built from; an absent one takes its default. -/
structure ConfigSettings where
  connectString : Option String := none
  sessionTimeout : Option Nat := none
  spinDelay : Option Nat := none
  retries : Option Nat := none
  initialBackoff : Option Nat := none

/-- A retry policy from its two settings; the first backoff must be positive. -/
def RetryPolicy.build (retries initialBackoff : Option Nat) : Except ConfigError RetryPolicy :=
  let backoff := initialBackoff.getD 1000
  if backoff = 0 then .error .zeroBackoff
  else .ok ⟨retries.getD 0, backoff⟩

/-- Checks the settings in order (connect string, session timeout, backoff) and fills in the
defaults: `localhost:2181`, 30000 ms, a spin delay of 1000 ms, no retries, 1000 ms. -/
def ConfigSettings.build (s : ConfigSettings) : Except ConfigError ClientConfig := do
  let connectString ← ConnectString.parse (s.connectString.getD "localhost:2181")
  let sessionTimeout := s.sessionTimeout.getD 30000
  if sessionTimeout = 0 then throw .zeroSessionTimeout
  let retry ← RetryPolicy.build s.retries s.initialBackoff
  pure { connectString, sessionTimeout, spinDelay := s.spinDelay.getD 1000, retry }

end Ensemble

import BrokerLoad.Config.Settings

/-!
# Faults

Everything that can end an operation early is a `Fault`: a value that says what went wrong. The
wording of each is in one place, `Fault.message`.

## Main definitions

* `ConnectError`, `PublishError`, `SubscribeError`, `BuildError`: the faults of the load test.
* `OsError`, `ValueError`: the faults of the operating system and of malformed values.
* `EmptyUse`: what an empty value cannot be used for.
* `Fault`: any of them.
-/

namespace BrokerLoad

/-! ## §1 The operating system -/

/-- An error number with its text, and the file it concerns. -/
structure OsError where
  errno : Int
  text : String
  file : Option String := none
  deriving DecidableEq, Repr

namespace OsError

/-- The wording of an operating-system error. -/
def message (e : OsError) : String :=
  let head := "[Errno " ++ integerText e.errno ++ "] " ++ e.text
  match e.file with
  | none => head
  | some file => head ++ ": " ++ quoted file

/-- There is no such file. -/
def noSuchFile (file : String) : OsError := ⟨2, "No such file or directory", some file⟩

/-- There is no such process any more. -/
def noSuchProcess : OsError := { errno := 3, text := "No such process" }

/-- A device of this kind is not there. -/
def noSuchDevice (file : String) : OsError := ⟨6, "No such device or address", some file⟩

/-- Nobody may do this. -/
def permissionDenied (file : String) : OsError := ⟨13, "Permission denied", some file⟩

/-- The path goes through a file as if it were a directory. -/
def notDirectory (file : String) : OsError := ⟨20, "Not a directory", some file⟩

/-- The path names a directory. -/
def isDirectory (file : String) : OsError := ⟨21, "Is a directory", some file⟩

/-- The device is full. -/
def noSpace : OsError := { errno := 28, text := "No space left on device" }

/-- The path or a step of it is too long. -/
def nameTooLong (file : String) : OsError := ⟨36, "File name too long", some file⟩

/-- Whether the error says that the process is gone. -/
def saysGone (e : OsError) : Bool := e.errno == 3

end OsError

/-! ## §2 Values -/

/-- Why a value cannot be used. -/
inductive ValueError where
  | integer (cause : IntegerError) (given : String)
  | real (given : String)
  | unwritableInteger
  | negativeIndex (given : Int)
  | notANumber
  | closedFile
  | openQuote
  | danglingEscape
  | other (text : String)
  deriving DecidableEq, Repr

/-- The wording of a value error. The text of a malformed integer is cut after 200 characters. -/
def ValueError.message : ValueError → String
  | integer .malformed given =>
    "invalid literal for int() with base 10: " ++
      String.ofList ((quotedChars given.toList).take 200)
  | integer (.tooManyDigits count) _ =>
    "Exceeds the limit (4300 digits) for integer string conversion: value has " ++
      toString count ++ " digits; use sys.set_int_max_str_digits() to increase the limit"
  | real given => "could not convert string to float: " ++ quoted given
  | unwritableInteger =>
    "Exceeds the limit (4300 digits) for integer string conversion; " ++
      "use sys.set_int_max_str_digits() to increase the limit"
  | negativeIndex given => "deadline index must not be negative: " ++ integerText given
  | notANumber => "cannot convert float NaN to integer"
  | closedFile => "I/O operation on closed file."
  | openQuote => "No closing quotation"
  | danglingEscape => "No escaped character"
  | other text => text

/-- A whole number or a real that is too large for the other kind, or a number of bytes that no
machine can address. -/
inductive OverflowError where
  | integerTooLarge
  | infinite
  | tooManyBytes
  deriving DecidableEq, Repr

/-- The wording of an overflow. -/
def OverflowError.message : OverflowError → String
  | integerTooLarge => "int too large to convert to float"
  | infinite => "cannot convert float infinity to integer"
  | tooManyBytes => "cannot fit 'int' into an index-sized integer"

/-! ## §3 Connections -/

/-- Why there is no connection to the broker, or no longer one. -/
inductive ConnectError where
  | unreachable (broker : BrokerAddress) (reason : String)
  | noAnswer (broker : BrokerAddress) (within : String)
  | handshake (broker : BrokerAddress) (reason : String)
  | refused (broker : BrokerAddress) (client reason : String)
  | lost (client : String) (broker : BrokerAddress)
  | lostInLoop (client : String) (broker : BrokerAddress) (reason : String)
  | other (text : String)
  deriving DecidableEq, Repr

/-- The wording of a connection error. -/
def ConnectError.message : ConnectError → String
  | unreachable broker reason => "cannot reach broker " ++ broker.text ++ ": " ++ reason
  | noAnswer broker within => "no CONNACK from " ++ broker.text ++ " within " ++ within ++ "s"
  | handshake broker reason => "connection to " ++ broker.text ++ " failed: " ++ reason
  | refused broker client reason =>
    "broker " ++ broker.text ++ " refused " ++ client ++ ": " ++ reason
  | lost client broker => client ++ " lost its connection to " ++ broker.text
  | lostInLoop client broker reason =>
    client ++ " lost its connection to " ++ broker.text ++ ": " ++ reason
  | other text => text

/-- Why a message was not published. -/
inductive PublishError where
  | failed (topic reason : String)
  | other (text : String)
  deriving DecidableEq, Repr

/-- The wording of a publish error. -/
def PublishError.message : PublishError → String
  | failed topic reason => "publish to " ++ quoted topic ++ " failed: " ++ reason
  | other text => text

/-- Why a subscription was not granted. -/
inductive SubscribeError where
  | failed (topic reason : String)
  | noAnswer (topic within : String)
  | refused (topic reason : String)
  | other (text : String)
  deriving DecidableEq, Repr

/-- The wording of a subscribe error. -/
def SubscribeError.message : SubscribeError → String
  | failed topic reason => "subscribe to " ++ quoted topic ++ " failed: " ++ reason
  | noAnswer topic within => "no SUBACK for " ++ quoted topic ++ " within " ++ within ++ "s"
  | refused topic reason => "broker refused subscription to " ++ quoted topic ++ ": " ++ reason
  | other text => text

/-! ## §4 Building the client -/

/-- Why there is no client to run. -/
inductive BuildError where
  | sources (directory : String)
  | command (reason : String)
  | missing (executable : String)
  | notExecutable (executable : String)
  deriving DecidableEq, Repr

/-- The wording of a build error. -/
def BuildError.message : BuildError → String
  | sources directory => "client sources in " ++ directory ++ " do not compile"
  | command reason => "client build failed: " ++ reason
  | missing executable => "client executable " ++ executable ++ " not found"
  | notExecutable executable => "client executable " ++ executable ++ " is not executable"

/-- The names of the signals that can end a command. -/
def signalName? (number : Nat) : Option String :=
  match number with
  | 1 => "SIGHUP" | 2 => "SIGINT" | 3 => "SIGQUIT" | 4 => "SIGILL" | 5 => "SIGTRAP"
  | 6 => "SIGABRT" | 7 => "SIGBUS" | 8 => "SIGFPE" | 9 => "SIGKILL" | 10 => "SIGUSR1"
  | 11 => "SIGSEGV" | 12 => "SIGUSR2" | 13 => "SIGPIPE" | 14 => "SIGALRM" | 15 => "SIGTERM"
  | 16 => "SIGSTKFLT" | 17 => "SIGCHLD" | 18 => "SIGCONT" | 19 => "SIGSTOP" | 20 => "SIGTSTP"
  | 21 => "SIGTTIN" | 22 => "SIGTTOU" | 23 => "SIGURG" | 24 => "SIGXCPU" | 25 => "SIGXFSZ"
  | 26 => "SIGVTALRM" | 27 => "SIGPROF" | 28 => "SIGWINCH" | 29 => "SIGIO" | 30 => "SIGPWR"
  | 31 => "SIGSYS" | 34 => "SIGRTMIN" | 64 => "SIGRTMAX"
  | _ => none

/-- The wording for a command that ended with a code other than zero; a negative code is the
number of the signal that ended it. -/
def commandFailedMessage (argv : List String) (code : Int) : String :=
  let head := "Command '" ++ quotedList argv ++ "' "
  if code < 0 then
    match signalName? code.natAbs with
    | some name => head ++ "died with <Signals." ++ name ++ ": " ++ toString code.natAbs ++ ">."
    | none => head ++ "died with unknown signal " ++ toString code.natAbs ++ "."
  else head ++ "returned non-zero exit status " ++ integerText code ++ "."

/-! ## §5 Empty values -/

/-- What a value was needed for that turned out to be empty: a comparison with a number, a text with
a number in it, a sleep, a sum, a quotient, a count, a text without the blanks around it, or a
path. -/
inductive EmptyUse where
  | comparison (relation : String)
  | display
  | sleep
  | sum
  | quotient
  | count
  | trimming
  | path
  deriving DecidableEq, Repr

/-- The wording for an empty value that was needed. -/
def EmptyUse.message : EmptyUse → String
  | comparison relation =>
    quoted relation ++ " not supported between instances of 'list' and 'int'"
  | display => "must be real number, not list"
  | sleep => "'list' object cannot be interpreted as an integer"
  | sum => "unsupported operand type(s) for +: 'float' and 'list'"
  | quotient => "unsupported operand type(s) for /: 'float' and 'list'"
  | count => "'list' object cannot be interpreted as an integer"
  | trimming => "'list' object has no attribute 'strip'"
  | path => "expected str, bytes or os.PathLike object, not list"

/-! ## §6 Faults of every kind -/

/-- What can end an operation early. -/
inductive Fault where
  | config (e : ConfigError)
  | build (e : BuildError)
  | connect (e : ConnectError)
  | publish (e : PublishError)
  | subscribe (e : SubscribeError)
  | os (e : OsError)
  | value (e : ValueError)
  | overflow (e : OverflowError)
  | missingKey (key : String)
  | divisionByZero
  | runtime (text : String)
  | subprocess (text : String)
  | commandFailed (argv : List String) (code : Int)
  | noProcess (operation : String)
  | emptyValue (use : EmptyUse)
  | fieldTooLong
  | searchTooDeep
  | outOfMemory
  | interrupted
  deriving DecidableEq, Repr

/-- The wording of a fault. -/
def Fault.message : Fault → String
  | config e => e.message
  | build e => e.message
  | connect e => e.message
  | publish e => e.message
  | subscribe e => e.message
  | os e => e.message
  | value e => e.message
  | overflow e => e.message
  | missingKey key => quoted key
  | divisionByZero => "float division by zero"
  | runtime text => text
  | subprocess text => text
  | commandFailed argv code => commandFailedMessage argv code
  | noProcess operation => "'NoneType' object has no attribute " ++ quoted operation
  | emptyValue use => use.message
  | fieldTooLong => "field larger than field limit (131072)"
  | searchTooDeep => "maximum recursion depth exceeded"
  | outOfMemory => ""
  | interrupted => ""

/-- Whether the fault says that the process is gone. -/
def Fault.saysGone : Fault → Bool
  | os e => e.saysGone
  | _ => false

/-- A value that is needed. -/
def needed {α : Type} (use : EmptyUse) : Option α → Except Fault α
  | some a => .ok a
  | none => .error (.emptyValue use)

end BrokerLoad

import HostTelemetry.Calendar
import HostTelemetry.Text.Quoted
import HostTelemetry.Text.Utf8

/-!
# Faults

What can go wrong below the simulator: in the file system, in streams, in numbers, dates and
texts. Each fault has a kind and a message.
-/

set_option autoImplicit false

namespace HostTelemetry

inductive Kind
  | settings
  | acquire
  | record
  | write
  | flush
  | system (code : Nat)
  | value
  | overflow
  | type
  | key
  | index
  | attribute
  | runtime
  | recursion
  | encoding
  | decoding
  | json
  | yaml
  | interrupt
  deriving DecidableEq, Repr

inductive Codec
  | utf8
  | ascii
  deriving DecidableEq, Repr

inductive JsonFault
  | value
  | extra
  | propertyName
  | colon
  | comma
  | unterminated
  | control
  | escape
  | unicodeEscape
  | byteOrderMark
  deriving DecidableEq, Repr

/-- A place in a text: line and column counted from 1, position from 0. -/
structure Place where
  line : Nat
  column : Nat
  position : Nat
  deriving DecidableEq, Repr

inductive Fault
  | system (code : Nat) (file : Option Text)
  | closed
  | nullByte
  | unreadable (u : Utf8.Unreadable)
  | unwritable (codec : Codec) (u : Utf8.Unwritable)
  | tooLargeForDouble
  | tooLargeForWord
  | notACodePoint
  | outsideDomain
  | negativeSpread
  | lowAboveHigh
  /-- A numeral of too many digits is read. -/
  | numeral (digits : Nat)
  /-- A number of too many digits is shown. -/
  | tooManyDigits
  | notADouble (t : Text)
  | notAnInteger (base : Nat) (t : Text)
  | calendar (f : CalendarFault)
  | notATruth (t : Text)
  | emptyNumber
  | notATimestamp
  | unordered
  | unorderedDates
  | unorderedZones
  | notAName (typeName : Text)
  | badKey (typeName : Text)
  | unknownLevel (name : Text)
  | badLevel (shown : Text)
  | tooDeep
  | json (f : JsonFault) (p : Place)
  | yaml
  | interrupt
  | planned (kind : Kind) (message : Text)
  deriving DecidableEq, Repr

namespace Fault

def systemText (code : Nat) : String :=
  match code with
  | 1 => "Operation not permitted"
  | 2 => "No such file or directory"
  | 3 => "No such process"
  | 4 => "Interrupted system call"
  | 5 => "Input/output error"
  | 6 => "No such device or address"
  | 7 => "Argument list too long"
  | 8 => "Exec format error"
  | 9 => "Bad file descriptor"
  | 10 => "No child processes"
  | 11 => "Resource temporarily unavailable"
  | 12 => "Cannot allocate memory"
  | 13 => "Permission denied"
  | 14 => "Bad address"
  | 15 => "Block device required"
  | 16 => "Device or resource busy"
  | 17 => "File exists"
  | 18 => "Invalid cross-device link"
  | 19 => "No such device"
  | 20 => "Not a directory"
  | 21 => "Is a directory"
  | 22 => "Invalid argument"
  | 23 => "Too many open files in system"
  | 24 => "Too many open files"
  | 25 => "Inappropriate ioctl for device"
  | 26 => "Text file busy"
  | 27 => "File too large"
  | 28 => "No space left on device"
  | 29 => "Illegal seek"
  | 30 => "Read-only file system"
  | 31 => "Too many links"
  | 32 => "Broken pipe"
  | 33 => "Numerical argument out of domain"
  | 34 => "Numerical result out of range"
  | 36 => "File name too long"
  | 39 => "Directory not empty"
  | 40 => "Too many levels of symbolic links"
  | 95 => "Operation not supported"
  | 103 => "Software caused connection abort"
  | 104 => "Connection reset by peer"
  | 110 => "Connection timed out"
  | 111 => "Connection refused"
  | 116 => "Stale file handle"
  | 121 => "Remote I/O error"
  | 122 => "Disk quota exceeded"
  | _ => ""

def systemMessage (code : Nat) : Text :=
  let s := systemText code
  if s.isEmpty then lit "Unknown error " ++ Text.ofNat code else lit s

def codecName : Codec → Text
  | .utf8 => lit "'utf-8' codec can't "
  | .ascii => lit "'ascii' codec can't "

def reasonText : Utf8.Reason → Text
  | .startByte => lit "invalid start byte"
  | .continuation => lit "invalid continuation byte"
  | .truncated => lit "unexpected end of data"

def placeText (start n : Nat) : Text :=
  lit " in position " ++ Text.ofNat start ++
    (if n ≤ 1 then [] else cp '-' :: Text.ofNat (start + n - 1)) ++ lit ": "

def unreadableText (u : Utf8.Unreadable) : Text :=
  codecName .utf8 ++ lit "decode " ++
    (match u.bytes with
    | [b] => lit "byte 0x" ++ Text.hex 2 b.toNat
    | _ => lit "bytes") ++
    placeText u.start u.bytes.length ++ reasonText u.reason

def unwritableText (codec : Codec) (u : Utf8.Unwritable) : Text :=
  codecName codec ++ lit "encode " ++
    (match u.run with
    | [c] => lit "character '" ++ Text.numberEscape c ++ lit "'"
    | _ => lit "characters") ++
    placeText u.start u.run.length ++
    (match codec with
    | .utf8 => lit "surrogates not allowed"
    | .ascii => lit "ordinal not in range(128)")

def spanText (micros : Int) : Text :=
  let days := Int.fdiv micros dayMicros
  let rest := (Int.fmod micros dayMicros).toNat
  let parts : List Text :=
    (if days = 0 then [] else [lit "days=" ++ Text.ofInt days]) ++
    (if rest / 1000000 = 0 then [] else [lit "seconds=" ++ Text.ofNat (rest / 1000000)]) ++
    (if rest % 1000000 = 0 then [] else [lit "microseconds=" ++ Text.ofNat (rest % 1000000)])
  lit "datetime.timedelta(" ++
    (if parts.isEmpty then lit "0" else Text.join (lit ", ") parts) ++ lit ")"

def calendarText : CalendarFault → Text
  | .year n => lit "year " ++ Text.ofNat n ++ lit " is out of range"
  | .month => lit "month must be in 1..12"
  | .day => lit "day is out of range for month"
  | .hour => lit "hour must be in 0..23"
  | .minute => lit "minute must be in 0..59"
  | .second => lit "second must be in 0..59"
  | .microsecond => lit "microsecond must be in 0..999999"
  | .offset n =>
    lit "offset must be a timedelta strictly between -timedelta(hours=24) and timedelta(hours=24), not "
      ++ spanText n ++ lit "."

def jsonText : JsonFault → Text
  | .value => lit "Expecting value"
  | .extra => lit "Extra data"
  | .propertyName => lit "Expecting property name enclosed in double quotes"
  | .colon => lit "Expecting ':' delimiter"
  | .comma => lit "Expecting ',' delimiter"
  | .unterminated => lit "Unterminated string starting at"
  | .control => lit "Invalid control character at"
  | .escape => lit "Invalid \\escape"
  | .unicodeEscape => lit "Invalid \\uXXXX escape"
  | .byteOrderMark => lit "Unexpected UTF-8 BOM (decode using utf-8-sig)"

def placeInText (p : Place) : Text :=
  lit ": line " ++ Text.ofNat p.line ++ lit " column " ++ Text.ofNat p.column ++
    lit " (char " ++ Text.ofNat p.position ++ lit ")"

def digitLimit : Text := lit "Exceeds the limit (4300 digits) for integer string conversion"

def digitAdvice : Text := lit "; use sys.set_int_max_str_digits() to increase the limit"

def message : Fault → Text
  | .system code file =>
    lit "[Errno " ++ Text.ofNat code ++ lit "] " ++ systemMessage code ++
      (match file with
      | some f => lit ": " ++ Text.quoted f
      | none => [])
  | .closed => lit "I/O operation on closed file"
  | .nullByte => lit "embedded null byte"
  | .unreadable u => unreadableText u
  | .unwritable codec u => unwritableText codec u
  | .tooLargeForDouble => lit "int too large to convert to float"
  | .tooLargeForWord => lit "Python int too large to convert to C int"
  | .notACodePoint => lit "chr() arg not in range(0x110000)"
  | .outsideDomain => lit "math domain error"
  | .negativeSpread => lit "stddev must be >= 0"
  | .lowAboveHigh => lit "low must be <= high"
  | .numeral n =>
    digitLimit ++ lit ": value has " ++ Text.ofNat n ++ lit " digits" ++ digitAdvice
  | .tooManyDigits => digitLimit ++ digitAdvice
  | .notADouble t => lit "could not convert string to float: " ++ Text.quoted t
  | .notAnInteger base t =>
    lit "invalid literal for int() with base " ++ Text.ofNat base ++ lit ": " ++ (Text.quoted t).take 200
  | .calendar f => calendarText f
  | .notATruth t => Text.quoted t
  | .emptyNumber => lit "string index out of range"
  | .notATimestamp => lit "'NoneType' object has no attribute 'groupdict'"
  | .unordered => lit "'<' not supported between instances"
  | .unorderedDates => lit "can't compare datetime.datetime to datetime.date"
  | .unorderedZones => lit "can't compare offset-naive and offset-aware datetimes"
  | .notAName n => lit "sequence item 0: expected str instance, " ++ n ++ lit " found"
  | .badKey n => lit "keys must be str, int, float, bool or None, not " ++ n
  | .unknownLevel n => lit "Unknown level: " ++ Text.quoted n
  | .badLevel s => lit "Level not an integer or a valid string: " ++ s
  | .tooDeep => lit "maximum recursion depth exceeded"
  | .json f p => jsonText f ++ placeInText p
  | .yaml => []
  | .interrupt => []
  | .planned _ m => m

def kind : Fault → Kind
  | .system code _ => .system code
  | .unreadable _ => .decoding
  | .unwritable _ _ => .encoding
  | .tooLargeForDouble | .tooLargeForWord => .overflow
  | .notATruth _ => .key
  | .emptyNumber => .index
  | .notATimestamp => .attribute
  | .unordered | .unorderedDates | .unorderedZones | .notAName _ | .badKey _ | .badLevel _ => .type
  | .tooDeep => .recursion
  | .json _ _ => .json
  | .yaml => .yaml
  | .interrupt => .interrupt
  | .planned k _ => k
  | _ => .value

def isSystem (f : Fault) : Bool :=
  match f.kind with
  | .system _ => true
  | _ => false

/-- Faults of a value, among them those of encoding and decoding. -/
def isValue (f : Fault) : Bool :=
  match f.kind with
  | .value | .encoding | .decoding | .json => true
  | _ => false

end Fault

end HostTelemetry

import HostTelemetry.CommandLine.Switch
import HostTelemetry.Text.Blank
import HostTelemetry.Text.Quoted

/-!
# Words of a command line

Every word is a switch, perhaps with a value behind an equals sign, or a plain word, or an
unknown one that looks like a switch. A long name may be cut short while only one begins so. From
two hyphens on all words are plain. Negative numbers, and words with a space that name no switch,
are plain.
-/

set_option autoImplicit false

namespace HostTelemetry.CommandLine

inductive UsageFault
  | ambiguous (word : Text) (matching : List Switch)
  | noValue (s : Switch)
  | valueIgnored (s : Switch) (value : Text)
  | notAnInteger (s : Switch) (value : Text)
  | unrecognized (words : List Text)
  | countNotPositive
  deriving DecidableEq, Repr

namespace UsageFault

def aboutSwitch (s : Switch) (rest : Text) : Text := lit "argument " ++ s.names ++ lit ": " ++ rest

def message : UsageFault → Text
  | .ambiguous w ms =>
    lit "ambiguous option: " ++ w ++ lit " could match " ++
      Text.join (lit ", ") (ms.map Switch.name)
  | .noValue s => aboutSwitch s (lit "expected one argument")
  | .valueIgnored s v => aboutSwitch s (lit "ignored explicit argument " ++ Text.quoted v)
  | .notAnInteger s v => aboutSwitch s (lit "invalid int value: " ++ Text.quoted v)
  | .unrecognized ws => lit "unrecognized arguments: " ++ Text.join (lit " ") ws
  | .countNotPositive => lit "--count must be a positive integer"

end UsageFault

inductive Word
  | plain (t : Text)
  | separator
  | unknown (t : Text)
  | switch (s : Switch) (value : Option Text)
  /-- The short name of `help` with more letters behind it. -/
  | cluster (letters : Text)
  deriving DecidableEq, Repr

namespace Word

def isDecimal (c : CodePoint) : Bool := (Text.decimalValue? c).isSome

def isDecimalRun (t : Text) : Bool := !t.isEmpty && t.all isDecimal

/-- A hyphen and digits of any script, perhaps with a point among or before them; a line end may
follow. -/
def isNegativeNumber (t : Text) : Bool :=
  match t with
  | [] => false
  | c :: rest =>
    let body := if rest.getLast? = some 10 then rest.dropLast else rest
    c == cp '-' && (isDecimalRun body ||
      match Text.cut? (cp '.') body with
      | some (whole, decimals) => whole.all isDecimal && isDecimalRun decimals
      | none => false)

def ofShortened (t : Text) : Except UsageFault Word :=
  let (start, value) := match Text.cut? (cp '=') t with
    | some (s, v) => (s, some v)
    | none => (t, none)
  let found := if Text.isPrefix (lit "--") t then Switch.beginning start else []
  match found with
  | [s] => .ok (.switch s value)
  | s :: ss => .error (.ambiguous t (s :: ss))
  | [] =>
    if Text.isPrefix Switch.shortName t then .ok (.cluster (t.drop 2))
    else if isNegativeNumber t || t.contains 32 then .ok (.plain t)
    else .ok (.unknown t)

def ofText (t : Text) : Except UsageFault Word :=
  if !Text.isPrefix (lit "-") t || t.length ≤ 1 then .ok (.plain t)
  else match Switch.named? t with
    | some s => .ok (.switch s none)
    | none =>
      match Text.cut? (cp '=') t with
      | none => ofShortened t
      | some (start, value) =>
        match Switch.named? start with
        | none => ofShortened t
        | some s =>
          .ok (if start = Switch.shortName then .cluster value else .switch s (some value))

def ofTexts : List Text → Except UsageFault (List Word)
  | [] => .ok []
  | t :: ts =>
    if t = lit "--" then .ok (.separator :: ts.map .plain)
    else do
      let w ← ofText t
      let ws ← ofTexts ts
      pure (w :: ws)

end Word

end HostTelemetry.CommandLine

import HostTelemetry.CommandLine.Word

/-!
# Usage and help

The usage names all switches. The help adds what each of them is for, in a column of its own, and
some examples. Lines are filled with as many words as fit.
-/

set_option autoImplicit false

namespace HostTelemetry.CommandLine

namespace Usage

def program : Text := lit "hostsim"

abbrev width : Nat := 78

abbrev column : Nat := 24

/-- Lines of words with single spaces between them, no longer than `n`, but for a longer word. -/
def fill (n : Nat) (line : Text) : List Text → List Text
  | [] => if line.isEmpty then [] else [line]
  | w :: ws =>
    if line.isEmpty then fill n w ws
    else if line.length + 1 + w.length ≤ n then fill n (line ++ 32 :: w) ws
    else line :: fill n w ws

def blanks (n : Nat) : Text := List.replicate n 32

def hanging (n : Nat) (lines : List Text) : Text :=
  Text.join (10 :: blanks n) lines ++ [10]

def withPlaceholder (s : Switch) (name : Text) : Text :=
  match s.placeholder? with
  | some p => name ++ 32 :: p
  | none => name

def briefOf (s : Switch) : Text :=
  lit "[" ++ withPlaceholder s (if s = .help then Switch.shortName else s.name) ++ lit "]"

def usage : Text :=
  let start := lit "usage: " ++ program ++ lit " "
  start ++ hanging start.length (fill (width - start.length) [] (Switch.all.map briefOf))

def entry (s : Switch) : Text :=
  let names := lit "  " ++
    withPlaceholder s (if s = .help then Switch.shortName ++ lit ", " ++ s.name else s.name)
  let purpose := fill (width - column) [] (Text.splitOn 32 (lit s.purpose))
  let gap := if names.length + 2 ≤ column then blanks (column - names.length)
    else 10 :: blanks column
  names ++ gap ++ hanging column purpose

def examples : List String :=
  ["Examples:",
    "  # Emit samples to ./data.json and stdout until Ctrl-C",
    "  hostsim",
    "",
    "  # Append to an existing log instead of truncating it",
    "  hostsim --output /var/log/hostsim.jsonl --append",
    "",
    "  # Ten samples with percentage fields bounded to [0, 100]",
    "  hostsim --count 10 --clamp",
    "        "]

def ended (ls : List Text) : Text := ls.flatMap (· ++ [10])

def help : Text :=
  usage ++ ended [[], lit "Synthetic host resource telemetry as JSON Lines", [], lit "options:"] ++
    Switch.all.flatMap entry ++ ended ([] :: examples.map lit)

def complaint (f : UsageFault) : Text :=
  usage ++ program ++ lit ": error: " ++ f.message ++ [10]

end Usage

end HostTelemetry.CommandLine

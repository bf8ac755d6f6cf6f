import HostTelemetry.Failure
import HostTelemetry.Log.Basic
import HostTelemetry.Text.Capital
import HostTelemetry.Value.Printer

/-!
# Settings

Where samples go, how the file is opened, whether samples are clamped, where the counters go and
how much is logged. Settings come in layers; a layer names some of the five keys and changes just
these. Every entry of a layer is checked, and the first fault in the order of the entries counts,
after keys that are not known.
-/

set_option autoImplicit false

namespace HostTelemetry

structure Settings where
  outputPath : Path
  append : Bool
  clamp : Bool
  metricsPath : Option Path
  logLevel : LevelName
  deriving DecidableEq, Repr

namespace Settings

def default : Settings := ⟨Path.ofText (lit "data.json"), false, false, none, .info⟩

inductive Key
  | outputPath
  | append
  | clamp
  | metricsPath
  | logLevel
  deriving DecidableEq, Repr

namespace Key

def all : List Key := [.outputPath, .append, .clamp, .metricsPath, .logLevel]

def toText : Key → Text
  | .outputPath => lit "output_path"
  | .append => lit "append"
  | .clamp => lit "clamp"
  | .metricsPath => lit "metrics_path"
  | .logLevel => lit "log_level"

def ofValue? : Value → Option Key
  | .text t => all.find? fun k => k.toText == t
  | _ => none

end Key

inductive Change
  | outputPath (p : Path)
  | append (b : Bool)
  | clamp (b : Bool)
  | metricsPath (p : Option Path)
  | logLevel (l : LevelName)
  deriving DecidableEq, Repr

def change (s : Settings) : Change → Settings
  | .outputPath p => { s with outputPath := p }
  | .append b => { s with append := b }
  | .clamp b => { s with clamp := b }
  | .metricsPath p => { s with metricsPath := p }
  | .logLevel l => { s with logLevel := l }

def changeAll (s : Settings) (cs : List Change) : Settings := cs.foldl change s

def shown (v : Value) : Except Failure Text :=
  match v.shown with
  | .ok t => .ok t
  | .error f => .error (.passed f)

def truthOf (key : Key) (v : Value) : Except Failure Bool := do
  match v with
  | .bool b => pure b
  | _ => .error (.notATruth key.toText (← shown v))

def pathOf (key : Key) (v : Value) : Except Failure Path := do
  match v with
  | .text t =>
    if (Text.trim t).isEmpty then .error (.notAPath key.toText (← shown v)) else pure (Path.ofText t)
  | .path p =>
    if (Text.trim p.toText).isEmpty then .error (.notAPath key.toText (← shown v)) else pure p
  | _ => .error (.notAPath key.toText (← shown v))

/-- The level whose name a value is, blanks and the case of letters aside. -/
def levelOf (v : Value) : Except Failure LevelName := do
  match v.plain with
  | .error f => .error (.passed f)
  | .ok t =>
    match LevelName.ofText? (Text.capitals (Text.trim t)) with
    | some l => pure l
    | none => .error (.notALevel (← shown v))

def check (key : Key) (v : Value) : Except Failure Change :=
  match key, v with
  | .append, v => (truthOf .append v).map .append
  | .clamp, v => (truthOf .clamp v).map .clamp
  | .outputPath, v => (pathOf .outputPath v).map .outputPath
  | .metricsPath, .none => .ok (.metricsPath none)
  | .metricsPath, v => (pathOf .metricsPath v).map (.metricsPath ∘ some)
  | .logLevel, v => (levelOf v).map .logLevel

/-- How keys can be put in order: only within one of these sorts. -/
inductive KeySort
  | text
  | number
  | bytes
  | date
  | localStamp
  | awareStamp
  | other
  deriving DecidableEq, Repr

def KeySort.of : Value → KeySort
  | .text _ => .text
  | .bool _ | .int _ | .double _ => .number
  | .bytes _ => .bytes
  | .date _ => .date
  | .stamp s => if s.offset?.isSome then .awareStamp else .localStamp
  | _ => .other

def keyTypeName (v : Value) : Text :=
  match v with
  | .date _ => lit "datetime.date"
  | .stamp _ => lit "datetime.datetime"
  | v => v.typeName

def textOf? : Value → Option Text
  | .text t => some t
  | _ => none

def least (v : Value) (vs : List Value) : Value :=
  vs.foldl (fun m w =>
    match m.number?, w.number? with
    | some a, some b => if b.lt a then w else m
    | _, _ => m) v

/-- What is wrong with keys that are not known. They are named in order if they are texts. -/
def unknown (v : Value) (vs : List Value) : Failure :=
  let sorts := (v :: vs).map KeySort.of
  let among := fun (ks : List KeySort) => sorts.all fun k => ks.contains k
  if among [.text] then .unknownKeys (Text.sort ((v :: vs).filterMap textOf?))
  else if vs.isEmpty ∨ among [KeySort.of v] then .passed (.notAName (keyTypeName (least v vs)))
  else if among [.localStamp, .awareStamp] then .passed .unorderedZones
  else if among [.date, .localStamp, .awareStamp] then .passed .unorderedDates
  else .passed .unordered

def changesOf (entries : List (Value × Value)) : Except Failure (List Change) :=
  match (entries.map Prod.fst).filter fun k => (Key.ofValue? k).isNone with
  | v :: vs => .error (unknown v vs)
  | [] => (entries.filterMap fun e => (Key.ofValue? e.1).map fun k => (k, e.2)).mapM
      fun e => check e.1 e.2

/-- Settings with a layer on top; entries without a value are not there. -/
def override (s : Settings) (entries : List (Value × Value)) : Except Failure Settings := do
  let cs ← changesOf (entries.filter fun e => match e.2 with
    | .none => false
    | _ => true)
  pure (s.changeAll cs)

end Settings

end HostTelemetry

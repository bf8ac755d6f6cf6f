import HostTelemetry.Fault
import HostTelemetry.Path

/-!
# The disk

A tree of folders and files below a root, and the bytes of each file. Names are bytes; a file
keeps its bytes when its name is gone, for whoever still holds it. A path is followed name by
name from the place where the program runs, and what fails first is the fault.

Left out are permissions, links and devices: everything may be read and written, a name leads to a
folder or to a file of its own, and a file is some bytes.
-/

set_option autoImplicit false

namespace HostTelemetry

abbrev FileName := Bytes

abbrev Location := List FileName

inductive Node
  | folder
  | file (id : Nat)
  deriving DecidableEq, Repr

structure Disk where
  nodes : List (Location × Node)
  content : Nat → Bytes
  /-- The number of the next new file. -/
  fresh : Nat

def noEntry : Nat := 2

def entryExists : Nat := 17

def notAFolder : Nat := 20

def aFolder : Nat := 21

def nameTooLong : Nat := 36

namespace FileName

def parent : FileName := [46, 46]

/-- The bytes of a name. A surrogate from 0xDC80 to 0xDCFF stands for a byte that is no text. -/
def ofText (t : Text) : FileName :=
  t.flatMap fun c =>
    if 0xDC80 ≤ c ∧ c ≤ 0xDCFF then [(c - 0xDC00).toUInt8] else Utf8.encodeOne c

def textOf : (n : Nat) → FileName → Text
  | 0, _ => []
  | _ + 1, [] => []
  | n + 1, b :: bs =>
    match Utf8.decodeOne b bs with
    | .ok (c, rest) => c :: textOf n rest
    | .error _ => (if b.toNat < 0x80 then b.toNat else 0xDC00 + b.toNat) :: textOf n bs

def toText (n : FileName) : Text := textOf n.length n

end FileName

def isStray (c : CodePoint) : Bool := decide c.IsSurrogate && !(0xDC80 ≤ c && c ≤ 0xDCFF)

namespace Path

/-- The names of a path as bytes, if it can be handed to the system. -/
def fileNames? (p : Path) : Except Fault (List FileName) :=
  let t := p.toText
  match t.dropWhile fun c => !isStray c with
  | _ :: _ =>
    let n := (t.takeWhile fun c => !isStray c).length
    .error (.unwritable .utf8 ⟨n, (t.drop n).takeWhile fun c => decide c.IsSurrogate⟩)
  | [] => if 0 ∈ t then .error .nullByte else .ok (p.names.map FileName.ofText)

end Path

namespace Disk

def here : Location := [[104]]

def empty : Disk := ⟨[(here, .folder)], fun _ => [], 0⟩

def node? (d : Disk) (l : Location) : Option Node :=
  if l = [] then some .folder
  else (d.nodes.find? fun n => n.1 == l).map Prod.snd

def step (d : Disk) (l : Location) (n : FileName) : Except Nat Location :=
  match d.node? l with
  | none => .error noEntry
  | some (.file _) => .error notAFolder
  | some .folder =>
    if n.length > 255 then .error nameTooLong
    else if n = FileName.parent then .ok l.dropLast
    else .ok (l ++ [n])

def walk (d : Disk) : Location → List FileName → Except Nat Location
  | l, [] => .ok l
  | l, n :: ns =>
    match d.step l n with
    | .error code => .error code
    | .ok l => d.walk l ns

def fault (code : Nat) (p : Path) : Fault := .system code (some p.toText)

/-- Where a path leads; only its last name may be missing. -/
def locate (d : Disk) (p : Path) : Except Fault Location := do
  let names ← p.fileNames?
  if p.slashes + (names.flatMap fun n => 47 :: n).length > 4096 then .error (fault nameTooLong p)
  else match d.walk (if p.slashes = 0 then here else []) names with
    | .error code => .error (fault code p)
    | .ok l => .ok l

def setContent (d : Disk) (id : Nat) (bs : Bytes) : Disk :=
  { d with content := fun i => if i = id then bs else d.content i }

def create (d : Disk) (l : Location) (bs : Bytes) : Disk :=
  { nodes := d.nodes ++ [(l, .file d.fresh)],
    content := fun i => if i = d.fresh then bs else d.content i,
    fresh := d.fresh + 1 }

def read (d : Disk) (p : Path) : Except Fault Bytes := do
  let l ← d.locate p
  match d.node? l with
  | none => .error (fault noEntry p)
  | some .folder => .error (fault aFolder p)
  | some (.file id) => .ok (d.content id)

/-- The file that is opened for writing, made if it is missing; emptied unless it is kept. -/
def acquire (d : Disk) (p : Path) (keep : Bool) : Except Fault (Nat × Disk) := do
  let l ← d.locate p
  match d.node? l with
  | some .folder => .error (fault aFolder p)
  | some (.file id) => .ok (id, if keep then d else d.setContent id [])
  | none => .ok (d.fresh, d.create l [])

def makeFolder (d : Disk) (p : Path) : Except Fault Disk := do
  let l ← d.locate p
  match d.node? l with
  | some _ => .error (fault entryExists p)
  | none => .ok { d with nodes := d.nodes ++ [(l, .folder)] }

def isFolder (d : Disk) (p : Path) : Except Fault Bool :=
  match d.locate p with
  | .ok l => .ok (d.node? l == some .folder)
  | .error (.system code f) =>
    if code = noEntry ∨ code = notAFolder then .ok false else .error (.system code f)
  | .error _ => .ok false

def ensureLast (d : Disk) (p : Path) : Except Fault Unit × Disk :=
  match d.makeFolder p with
  | .ok d => (.ok (), d)
  | .error f =>
    if f.isSystem ∧ f.kind ≠ .system noEntry then
      match d.isFolder p with
      | .ok true => (.ok (), d)
      | .ok false => (.error f, d)
      | .error g => (.error g, d)
    else (.error f, d)

/-- Makes a folder and whatever is missing above it. Folders made before a fault stay. -/
def ensureFolder (d : Disk) (p : Path) : Except Fault Unit × Disk :=
  match d.ensureLast p with
  | (.ok _, d) => (.ok (), d)
  | (.error f, d) =>
    if h : f.kind = .system noEntry ∧ p.names ≠ [] then
      match d.ensureFolder p.parent with
      | (.ok _, d) => d.ensureLast p
      | (.error g, d) => (.error g, d)
    else (.error f, d)
termination_by p.names.length
decreasing_by
  have := List.length_pos_iff.2 h.2
  simp [Path.parent, List.length_dropLast]
  omega

def removeFile (d : Disk) (p : Path) : Except Fault Disk := do
  let l ← d.locate p
  match d.node? l with
  | none => .error (fault noEntry p)
  | some .folder => .error (fault aFolder p)
  | some (.file _) => .ok { d with nodes := d.nodes.filter fun n => n.1 != l }

def removeTree (d : Disk) (p : Path) : Except Fault Disk := do
  let l ← d.locate p
  .ok { d with nodes := d.nodes.filter fun n => !l.isPrefixOf n.1 }

def rename (d : Disk) (p q : Path) : Except Fault Disk := do
  let l ← d.locate p
  let m ← d.locate q
  match d.node? l with
  | none => .error (fault noEntry p)
  | some _ =>
    let kept := d.nodes.filter fun n => n.1 != m
    .ok { d with nodes := kept.map fun n =>
      if l.isPrefixOf n.1 then (m ++ n.1.drop l.length, n.2) else n }

/-- Puts a file at a path, with the folders above it. -/
def put (d : Disk) (p : Path) (bs : Bytes) : Disk :=
  let d := (d.ensureFolder p.parent).2
  match d.acquire p false with
  | .ok (id, d) => d.setContent id bs
  | .error _ => d

def shownPath (l : Location) : Text :=
  Text.join [cp '/'] ((l.drop here.length).map FileName.toText)

def isBare (d : Disk) (l : Location) : Bool :=
  !d.nodes.any fun n => l.isPrefixOf n.1 && n.1 != l

/-- All files, and all folders that hold nothing, in the order of their paths. -/
def listing (d : Disk) : List (Text × Option Bytes) :=
  let found := d.nodes.filterMap fun n =>
    if here.isPrefixOf n.1 && n.1 != here then
      match n.2 with
      | .file id => some (shownPath n.1, some (d.content id))
      | .folder => if d.isBare n.1 then some (shownPath n.1 ++ [cp '/'], none) else none
    else none
  found.mergeSort fun a b => Text.le a.1 b.1

end Disk

end HostTelemetry

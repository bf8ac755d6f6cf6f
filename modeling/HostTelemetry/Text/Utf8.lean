import HostTelemetry.Text.Basic

/-!
# UTF-8

Bytes of a text and back. Surrogates have no bytes, and no bytes stand for a surrogate. A fault
names the run of code points or bytes it is about and the reason.
-/

set_option autoImplicit false

namespace HostTelemetry

abbrev Bytes := List UInt8

namespace Utf8

def encodeOne (c : CodePoint) : Bytes :=
  if c < 0x80 then [c.toUInt8]
  else if c < 0x800 then [(0xC0 + c / 0x40).toUInt8, (0x80 + c % 0x40).toUInt8]
  else if c < 0x10000 then
    [(0xE0 + c / 0x1000).toUInt8, (0x80 + c / 0x40 % 0x40).toUInt8, (0x80 + c % 0x40).toUInt8]
  else
    [(0xF0 + c / 0x40000).toUInt8, (0x80 + c / 0x1000 % 0x40).toUInt8,
      (0x80 + c / 0x40 % 0x40).toUInt8, (0x80 + c % 0x40).toUInt8]

structure Unwritable where
  start : Nat
  run : Text
  deriving DecidableEq, Repr

def refused (ok : CodePoint → Bool) (t : Text) : Option Unwritable :=
  let rest := t.dropWhile ok
  if rest.isEmpty then none
  else some ⟨(t.takeWhile ok).length, rest.takeWhile fun c => !ok c⟩

def encode (t : Text) : Except Unwritable Bytes :=
  match refused (fun c => !decide c.IsSurrogate) t with
  | some u => .error u
  | none => .ok (t.flatMap encodeOne)

inductive Reason
  | startByte
  | continuation
  | truncated
  deriving DecidableEq, Repr

structure Unreadable where
  start : Nat
  bytes : Bytes
  reason : Reason
  deriving DecidableEq, Repr

/-- How many bytes follow a first byte, its share of the code point, and the bounds of the
second byte; the bounds keep out overlong forms, surrogates and numbers above 0x10FFFF. -/
def lead? (b : UInt8) : Option (Nat × Nat × Nat × Nat) :=
  let n := b.toNat
  if 0xC2 ≤ n ∧ n ≤ 0xDF then some (1, n - 0xC0, 0x80, 0xBF)
  else if n = 0xE0 then some (2, 0, 0xA0, 0xBF)
  else if n = 0xED then some (2, 0xD, 0x80, 0x9F)
  else if 0xE1 ≤ n ∧ n ≤ 0xEF then some (2, n - 0xE0, 0x80, 0xBF)
  else if n = 0xF0 then some (3, 0, 0x90, 0xBF)
  else if 0xF1 ≤ n ∧ n ≤ 0xF3 then some (3, n - 0xF0, 0x80, 0xBF)
  else if n = 0xF4 then some (3, 4, 0x80, 0x8F)
  else none

/-- Reads `k` continuation bytes: the code point and the rest, or the bytes read so far and the
reason. -/
def continued : (k acc low high : Nat) → (seen bs : Bytes) → Except (Bytes × Reason) (Nat × Bytes)
  | 0, acc, _, _, _, bs => .ok (acc, bs)
  | _ + 1, _, _, _, seen, [] => .error (seen, .truncated)
  | k + 1, acc, low, high, seen, b :: bs =>
    if low ≤ b.toNat ∧ b.toNat ≤ high then
      continued k (acc * 0x40 + (b.toNat - 0x80)) 0x80 0xBF (seen ++ [b]) bs
    else .error (seen, .continuation)

def decodeOne (b : UInt8) (bs : Bytes) : Except (Bytes × Reason) (CodePoint × Bytes) :=
  if b.toNat < 0x80 then .ok (b.toNat, bs)
  else match lead? b with
    | none => .error ([b], .startByte)
    | some (k, acc, low, high) => continued k acc low high [b] bs

/-- Reads code points up to the end or a fault; `n` bounds the number of steps. -/
def decodeFrom : (n pos : Nat) → Bytes → Text × Option Unreadable
  | _, _, [] => ([], none)
  | 0, _, _ => ([], none)
  | n + 1, pos, b :: bs =>
    match decodeOne b bs with
    | .error (seen, r) => ([], some ⟨pos, seen, r⟩)
    | .ok (c, rest) =>
      let (t, fault) := decodeFrom n (pos + (bs.length + 1 - rest.length)) rest
      (c :: t, fault)

def decode (bs : Bytes) : Except Unreadable Text :=
  match decodeFrom bs.length 0 bs with
  | (t, none) => .ok t
  | (_, some u) => .error u

def decode? (bs : Bytes) : Option Text := (decode bs).toOption

/-- Reads bytes that arrive in pieces, up to a piece with a fault. A code point cut by the end of a
piece waits for the next one; places in faults are counted from the beginning of the piece and what
waited for it. -/
def decodePieces (waiting : Bytes) : List Bytes → Text × Option Unreadable
  | [] =>
    match decode waiting with
    | .ok t => (t, none)
    | .error u => ([], some u)
  | p :: ps =>
    let bs := waiting ++ p
    match decodeFrom bs.length 0 bs with
    | (t, none) =>
      let (more, fault) := decodePieces [] ps
      (t ++ more, fault)
    | (t, some u) =>
      if u.reason = .truncated then
        let (more, fault) := decodePieces u.bytes ps
        (t ++ more, fault)
      else ([], some u)

def pieces (size : Nat) : (n : Nat) → Bytes → List Bytes
  | 0, _ => []
  | n + 1, bs => if bs.isEmpty then [] else bs.take size :: pieces size n (bs.drop size)

end Utf8

end HostTelemetry

namespace FileShell

abbrev Text := List Char

abbrev Bytes := List UInt8

namespace Utf8

def encodeChar (c : Char) : Bytes :=
  let n := c.toNat
  if n < 0x80 then [.ofNat n]
  else if n < 0x800 then [.ofNat (0xC0 + n / 0x40), .ofNat (0x80 + n % 0x40)]
  else if n < 0x10000 then
    [.ofNat (0xE0 + n / 0x1000), .ofNat (0x80 + n / 0x40 % 0x40), .ofNat (0x80 + n % 0x40)]
  else
    [.ofNat (0xF0 + n / 0x40000), .ofNat (0x80 + n / 0x1000 % 0x40),
      .ofNat (0x80 + n / 0x40 % 0x40), .ofNat (0x80 + n % 0x40)]

def encode (t : Text) : Bytes := t.flatMap encodeChar

/-- The order of texts, which is that of their bytes. -/
def precedes (a b : Text) : Bool := decide (encode a ≤ encode b)

/-- A character under way: `due` more bytes are owed, the next of them between `low` and `high`. -/
structure Pending where
  due : Nat
  low : Nat
  high : Nat
  value : Nat
deriving DecidableEq, Repr

/-- What a byte starts: a whole character, a longer one, or nothing. -/
def start (b : UInt8) : Except (Option Char) Pending :=
  let n := b.toNat
  if n < 0x80 then .error (some (Char.ofNat n))
  else if n < 0xC2 then .error none
  else if n < 0xE0 then .ok ⟨1, 0x80, 0xBF, n - 0xC0⟩
  else if n = 0xE0 then .ok ⟨2, 0xA0, 0xBF, 0⟩
  else if n = 0xED then .ok ⟨2, 0x80, 0x9F, 0xD⟩
  else if n < 0xF0 then .ok ⟨2, 0x80, 0xBF, n - 0xE0⟩
  else if n = 0xF0 then .ok ⟨3, 0x90, 0xBF, 0⟩
  else if n < 0xF4 then .ok ⟨3, 0x80, 0xBF, n - 0xF0⟩
  else if n = 0xF4 then .ok ⟨3, 0x80, 0x8F, 4⟩
  else .error none

/-- The characters of the bytes that follow a character under way; `none` is an ill-formed piece. -/
def pieces : Option Pending → Bytes → List (Option Char)
  | none, [] => []
  | some _, [] => [none]
  | none, b :: rest =>
    match start b with
    | .error c => c :: pieces none rest
    | .ok p => pieces (some p) rest
  | some p, b :: rest =>
    if p.low ≤ b.toNat ∧ b.toNat ≤ p.high then
      let value := p.value * 0x40 + b.toNat % 0x40
      if p.due = 1 then some (Char.ofNat value) :: pieces none rest
      else pieces (some ⟨p.due - 1, 0x80, 0xBF, value⟩) rest
    else
      match start b with
      | .error c => none :: c :: pieces none rest
      | .ok q => none :: pieces (some q) rest

def replacement : Char := Char.ofNat 0xFFFD

/-- Reads any bytes, with U+FFFD for each maximal ill-formed piece. -/
def decode (bs : Bytes) : Text := (pieces none bs).map (·.getD replacement)

def decode? (bs : Bytes) : Option Text := (pieces none bs).mapM id

@[simp] theorem encode_nil : encode [] = [] := rfl

@[simp] theorem encode_append (s t : Text) : encode (s ++ t) = encode s ++ encode t := by
  simp [encode]

@[simp] theorem decode_nil : decode [] = [] := rfl

end Utf8
end FileShell

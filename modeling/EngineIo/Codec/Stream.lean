import Mathlib.Data.List.Basic
import Mathlib.Tactic.Ring

set_option autoImplicit false

/-! # Reading frames from a byte stream

A reader consumes a prefix of the bytes to come and gives a value or an error; what it has read stays
consumed when it fails. A reader that undoes an encoder whatever follows (`Inverts`) makes the encoding
self-delimiting: reading again and again undoes the concatenation. -/

namespace Stream

variable {α β ε : Type}

abbrev Reader (ε : Type) := ExceptT ε (StateM (List UInt8))

inductive ReadError
  | eof
  | unexpectedEOF
deriving DecidableEq, Repr

/-- `io.ReadFull` into a slice of `n` bytes. -/
def readFull (fail : ReadError → ε) (n : Nat) : Reader ε (List UInt8) := fun r =>
  if n ≤ r.length then (.ok (r.take n), r.drop n)
  else if r = [] then (.error (fail .eof), [])
  else (.error (fail .unexpectedEOF), [])

/-- Read `n` values one after another. -/
def readMany (read : Reader ε α) : Nat → Reader ε (List α)
  | 0 => pure []
  | n + 1 => do
    let a ← read
    let as ← readMany read n
    return a :: as

/-- Read values until the first error. Every read takes fuel; `none` means that it ran out. -/
def readUntilError (read : Reader ε α) : Nat → List UInt8 → Option (List α × ε)
  | 0, _ => none
  | fuel + 1, r =>
    match read r with
    | (.error e, _) => some ([], e)
    | (.ok a, r') => (readUntilError read fuel r').map fun (as, e) => (a :: as, e)

/-- The low `width` bytes of a number, the most significant first. -/
def bigEndian : Nat → Nat → List UInt8
  | 0, _ => []
  | width + 1, n => UInt8.ofNat (n / 256 ^ width) :: bigEndian width n

def ofBigEndian (bytes : List UInt8) : Nat := bytes.foldl (fun n b => n * 256 + b.toNat) 0

/-- The reader gives back `a` from its encoding and leaves what follows. -/
def Inverts (read : Reader ε α) (encode : α → List UInt8) (a : α) : Prop :=
  ∀ rest, read (encode a ++ rest) = (.ok a, rest)

theorem ok_inj {a b : α} {r r' : List UInt8}
    (h : ((.ok a, r) : Except ε α × List UInt8) = (.ok b, r')) : a = b ∧ r = r' := by
  cases h
  exact ⟨rfl, rfl⟩

theorem ofExcept_eq (x : Except ε α) (r : List UInt8) :
    (MonadExcept.ofExcept x : Reader ε α) r = (x, r) := by
  cases x <;> rfl

theorem bind_ok {x : Reader ε α} {f : α → Reader ε β} {r r' : List UInt8} {a : α}
    (h : x r = (.ok a, r')) : (x >>= f) r = f a r' := by
  show (ExceptT.bind x f) r = _
  simp only [ExceptT.bind, ExceptT.mk, bind, StateT.bind, h, ExceptT.bindCont]

theorem bind_error {x : Reader ε α} {f : α → Reader ε β} {r r' : List UInt8} {e : ε}
    (h : x r = (.error e, r')) : (x >>= f) r = (.error e, r') := by
  show (ExceptT.bind x f) r = _
  simp only [ExceptT.bind, ExceptT.mk, bind, StateT.bind, h, ExceptT.bindCont]
  rfl

theorem bind_eq_ok {x : Reader ε α} {f : α → Reader ε β} {r r'' : List UInt8} {b : β}
    (h : (x >>= f) r = (.ok b, r'')) : ∃ a r', x r = (.ok a, r') ∧ f a r' = (.ok b, r'') := by
  cases hx : x r with
  | mk result r' =>
    cases result with
    | ok a => exact ⟨a, r', rfl, by rwa [bind_ok hx] at h⟩
    | error e =>
      rw [bind_error hx] at h
      cases h

theorem readFull_append (fail : ReadError → ε) {n : Nat} {bytes : List UInt8}
    (hlen : bytes.length = n) (rest : List UInt8) :
    readFull fail n (bytes ++ rest) = (.ok bytes, rest) := by
  subst hlen
  simp [readFull]

/-- A stream that is too short is consumed, and the error tells whether there was a byte at all. -/
theorem readFull_short (fail : ReadError → ε) {n : Nat} {r : List UInt8} (h : r.length < n) :
    readFull fail n r = (.error (fail (if r = [] then .eof else .unexpectedEOF)), []) := by
  unfold readFull
  rw [if_neg (by omega)]
  split <;> rfl

@[simp] theorem length_bigEndian (width n : Nat) : (bigEndian width n).length = width := by
  induction width with
  | zero => rfl
  | succ width ih => simp [bigEndian, ih]

theorem foldl_bigEndian (width n acc : Nat) :
    (bigEndian width n).foldl (fun n b => n * 256 + b.toNat) acc =
      acc * 256 ^ width + n % 256 ^ width := by
  induction width generalizing acc with
  | zero => simp [bigEndian, Nat.mod_one]
  | succ width ih =>
    -- the next byte is the digit of weight 256 ^ width
    have hdigit : (UInt8.ofNat (n / 256 ^ width)).toNat = n / 256 ^ width % 256 := by simp
    have hsplit : n % 256 ^ (width + 1) = n / 256 ^ width % 256 * 256 ^ width + n % 256 ^ width := by
      rw [pow_succ, Nat.mod_mul, add_comm, mul_comm]
    rw [bigEndian, List.foldl_cons, ih, hdigit, hsplit]
    ring

theorem ofBigEndian_bigEndian {width n : Nat} (hn : n < 256 ^ width) :
    ofBigEndian (bigEndian width n) = n := by
  rw [ofBigEndian, foldl_bigEndian, Nat.mod_eq_of_lt hn, zero_mul, zero_add]

/-- Reading as many values as were written undoes the concatenation of their encodings. -/
theorem readMany_flatMap {read : Reader ε α} {encode : α → List UInt8} {as : List α}
    (h : ∀ a ∈ as, Inverts read encode a) (rest : List UInt8) :
    readMany read as.length (as.flatMap encode ++ rest) = (.ok as, rest) := by
  induction as with
  | nil => rfl
  | cons a as ih =>
    have hhead := h a (List.mem_cons_self ..) (as.flatMap encode ++ rest)
    have htail := ih fun b hb => h b (List.mem_cons_of_mem _ hb)
    rw [List.flatMap_cons, List.append_assoc, List.length_cons, readMany, bind_ok hhead,
      bind_ok htail]
    rfl

/-- Reading until the first error gives every value whose encoding is complete, and then the error of
    what is left. -/
theorem readUntilError_flatMap {γ : Type} {read : Reader ε α} {encode : γ → List UInt8}
    {value : γ → α} {items : List γ}
    (h : ∀ c ∈ items, ∀ rest, read (encode c ++ rest) = (.ok (value c), rest)) {rest rest' : List UInt8}
    {e : ε} (hrest : read rest = (.error e, rest')) {fuel : Nat} (hfuel : items.length < fuel) :
    readUntilError read fuel (items.flatMap encode ++ rest) = some (items.map value, e) := by
  induction items generalizing fuel with
  | nil =>
    cases fuel with
    | zero => exact absurd hfuel (Nat.not_lt_zero _)
    | succ fuel => simp [readUntilError, hrest]
  | cons c items ih =>
    obtain ⟨hc, hitems⟩ := List.forall_mem_cons.1 h
    cases fuel with
    | zero => exact absurd hfuel (Nat.not_lt_zero _)
    | succ fuel =>
      have hrec := ih hitems (Nat.lt_of_succ_lt_succ hfuel)
      rw [List.flatMap_cons, List.append_assoc, readUntilError, hc]
      simp only [hrec, Option.map_some, List.map_cons]

end Stream

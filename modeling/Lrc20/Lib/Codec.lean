import Mathlib.Algebra.Order.BigOperators.Group.List
import Mathlib.Data.Vector.Basic
import Lrc20.Lib.Bytes

open ByteOrder

/-! Decoders that read a value off the front of a byte string, encoders that report how much
they wrote, and the primitives of Bitcoin's consensus encoding. -/

namespace Codec

variable {α β : Type}

/-- Why decoding stops. -/
inductive Failure where
  | unexpectedEof
  | invalidData
  | nonMinimalVarInt
  | invalidChecksum
  | parseFailed (message : String)
  /-- The decoder panics here. -/
  | panicked
deriving DecidableEq, Repr

/-- A decoder gives the value and the bytes after it. -/
def Decoder (α : Type) : Type := List UInt8 → Except Failure (α × List UInt8)

namespace Decoder

instance : Monad Decoder where
  pure value := fun bytes => .ok (value, bytes)
  bind first next := fun bytes =>
    match first bytes with
    | .error failure => .error failure
    | .ok (value, rest) => next value rest

def fail (failure : Failure) : Decoder α := fun _ => .error failure

/-- The value of an option, or a failure. -/
def orFail (failure : Failure) : Option α → Decoder α
  | some value => pure value
  | none => fail failure

/-- The result of a computation that reads nothing. -/
def ofExcept : Except Failure α → Decoder α
  | .ok value => pure value
  | .error failure => fail failure

/-- `map_err`: the same decoder with one failure for all. -/
def failingWith (failure : Failure) (decoder : Decoder α) : Decoder α := fun bytes =>
  match decoder bytes with
  | .error _ => .error failure
  | .ok result => .ok result

theorem bind_apply (first : Decoder α) (next : α → Decoder β) (bytes : List UInt8) :
    (first >>= next) bytes = match first bytes with
      | .error failure => Except.error failure
      | .ok (value, rest) => next value rest := rfl

variable {bytes rest : List UInt8} {next : α → Decoder β} {first : Decoder α} {failure : Failure}
  {result : α} {value : α}

theorem bind_eq_ok {result : β} :
    (first >>= next) bytes = .ok (result, rest) ↔
      ∃ value middle, first bytes = .ok (value, middle) ∧ next value middle = .ok (result, rest) := by
  rw [bind_apply]
  cases first bytes with
  | error failure => simp
  | ok read =>
    obtain ⟨value, middle⟩ := read
    simp

theorem pure_eq_ok :
    (pure value : Decoder α) bytes = .ok (result, rest) ↔ value = result ∧ bytes = rest := by
  show Except.ok (value, bytes) = .ok (result, rest) ↔ _
  simp

theorem bind_of_ok {middle : List UInt8} (read : first bytes = .ok (value, middle)) :
    (first >>= next) bytes = next value middle := by
  rw [bind_apply, read]

theorem bind_of_error (failed : first bytes = .error failure) :
    (first >>= next) bytes = .error failure := by
  rw [bind_apply, failed]

@[simp] theorem orFail_some (failure : Failure) (value : α) :
    orFail failure (some value) = pure value := rfl

theorem orFail_eq_ok {found : Option α} :
    orFail failure found bytes = .ok (result, rest) ↔ found = some result ∧ bytes = rest := by
  cases found with
  | none => simp [orFail, fail]
  | some value => simp [pure_eq_ok]

theorem ofExcept_eq_ok {outcome : Except Failure α} :
    ofExcept outcome bytes = .ok (result, rest) ↔ outcome = .ok result ∧ bytes = rest := by
  cases outcome with
  | error failure => simp [ofExcept, fail]
  | ok value => simp [ofExcept, pure_eq_ok]

theorem failingWith_eq_ok {decoder : Decoder α} :
    failingWith failure decoder bytes = .ok (result, rest) ↔ decoder bytes = .ok (result, rest) := by
  unfold failingWith
  cases decoder bytes with
  | error | ok => simp

end Decoder

section

variable (decoder : Decoder α) (bytes : List UInt8)

/-- The decoder reads the value off these bytes, whatever follows them, and nothing more. -/
def Reads (value : α) : Prop :=
  ∀ rest, decoder (bytes ++ rest) = .ok (value, rest)

/-- The decoder does not give the value on these bytes, whatever follows them. -/
def Misreads (value : α) : Prop :=
  ∀ rest after, decoder (bytes ++ rest) ≠ .ok (value, after)

/-- Whether and how the first decoder gives its value is up to the second. -/
def Tracks (value : α) (inner : Decoder β) (innerBytes : List UInt8) (innerValue : β) : Prop :=
  ∀ rest after, decoder (bytes ++ rest) = .ok (value, after) ↔
    inner (innerBytes ++ rest) = .ok (innerValue, after)

/-- The decoder reads the value back under the condition, and never gives it without. -/
structure ReadsWhen (decoder : Decoder α) (bytes : List UInt8) (value : α) (condition : Prop) :
    Prop where
  reads : condition → Reads decoder bytes value
  misreads : ¬ condition → Misreads decoder bytes value

/-- A value the decoder gives takes at least its size of bytes. -/
def Consumes (size : α → Nat) : Prop :=
  ∀ bytes value rest, decoder bytes = .ok (value, rest) → size value + rest.length ≤ bytes.length

/-- Every value the decoder gives has the property. -/
def Yields (property : α → Prop) : Prop :=
  ∀ bytes value rest, decoder bytes = .ok (value, rest) → property value

end

section Rules

variable {decoder : Decoder α} {next : α → Decoder β} {a b : List UInt8} {value : α} {result : β}
  {failure : Failure} {build : α → β} {property : α → Prop} {size : α → Nat}

theorem Reads.yields (reads : Reads decoder a value) (yields : Yields decoder property) :
    property value :=
  yields _ _ _ (reads [])

/-- A decoder that takes more than the bytes hold does not read the value off them. -/
theorem Reads.size_le (reads : Reads decoder a value) (consumes : Consumes decoder size) :
    size value ≤ a.length := by
  have taken := consumes _ _ _ (reads [])
  simpa using taken

theorem reads_pure (value : α) : Reads (pure value) [] value := fun _ => rfl

/-- After a prefix that is read back, only the rest decides. -/
theorem tracks_bind (first : Reads decoder a value) :
    Tracks (decoder >>= next) (a ++ b) result (next value) b result := by
  intro rest after
  rw [List.append_assoc, Decoder.bind_of_ok (first (b ++ rest))]

/-- The last read of a decoder whose result determines what was read. -/
theorem tracks_map (injective : Function.Injective build) :
    Tracks (decoder >>= fun read => pure (build read)) a (build value) decoder a value := by
  intro rest after
  rw [Decoder.bind_eq_ok]
  constructor
  · rintro ⟨read, middle, first, last⟩
    obtain ⟨built, rfl⟩ := Decoder.pure_eq_ok.mp last
    rw [first, injective built]
  · intro read
    exact ⟨value, after, read, rfl⟩

section Tracking

variable {γ : Type} {inner : Decoder β} {innerValue : β} {innermost : Decoder γ}
  {c : List UInt8} {innermostValue : γ}

theorem Tracks.trans (first : Tracks decoder a value inner b innerValue)
    (second : Tracks inner b innerValue innermost c innermostValue) :
    Tracks decoder a value innermost c innermostValue :=
  fun rest after => (first rest after).trans (second rest after)

theorem Tracks.reads_iff (tracks : Tracks decoder a value inner b innerValue) :
    Reads decoder a value ↔ Reads inner b innerValue :=
  forall_congr' fun rest => tracks rest rest

theorem Tracks.misreads (tracks : Tracks decoder a value inner b innerValue)
    (misreads : Misreads inner b innerValue) : Misreads decoder a value :=
  fun rest after given => misreads rest after ((tracks rest after).mp given)

end Tracking

theorem reads_bind_iff (first : Reads decoder a value) :
    Reads (decoder >>= next) (a ++ b) result ↔ Reads (next value) b result :=
  (tracks_bind first).reads_iff

theorem Reads.bind (first : Reads decoder a value) (second : Reads (next value) b result) :
    Reads (decoder >>= next) (a ++ b) result :=
  (reads_bind_iff first).mpr second

theorem Reads.bind_pure (reads : Reads decoder a value) (last : next value = pure result) :
    Reads (decoder >>= next) a result := by
  intro rest
  rw [Decoder.bind_of_ok (reads rest), last]
  rfl

theorem Reads.map (reads : Reads decoder a value) :
    Reads (decoder >>= fun read => pure (build read)) a (build value) :=
  reads.bind_pure rfl

theorem reads_map_iff (injective : Function.Injective build) :
    Reads (decoder >>= fun read => pure (build read)) a (build value) ↔ Reads decoder a value :=
  (tracks_map injective).reads_iff

/-- A misread value is not put into a result that determines it. -/
theorem Misreads.bind (misreads : Misreads decoder a value)
    (determined : ∀ read middle after, next read middle = .ok (result, after) → read = value) :
    Misreads (decoder >>= next) (a ++ b) result := by
  intro rest after given
  rw [List.append_assoc] at given
  obtain ⟨read, middle, first, last⟩ := Decoder.bind_eq_ok.mp given
  rw [determined read middle after last] at first
  exact misreads (b ++ rest) middle first

theorem Yields.misreads (yields : Yields decoder property) (lacks : ¬ property value) :
    Misreads decoder a value :=
  fun _ _ given => lacks (yields _ _ _ given)

theorem Tracks.readsWhen {inner : Decoder β} {innerValue : β} {condition : Prop}
    (tracks : Tracks decoder a value inner b innerValue)
    (readsWhen : ReadsWhen inner b innerValue condition) : ReadsWhen decoder a value condition :=
  ⟨fun holds => tracks.reads_iff.mpr (readsWhen.reads holds),
    fun lacks => tracks.misreads (readsWhen.misreads lacks)⟩

theorem ReadsWhen.bind {p q : Prop} (first : ReadsWhen decoder a value p)
    (second : ReadsWhen (next value) b result q)
    (determined : ∀ read middle after, next read middle = .ok (result, after) → read = value) :
    ReadsWhen (decoder >>= next) (a ++ b) result (p ∧ q) := by
  refine ⟨fun holds => (first.reads holds.1).bind (second.reads holds.2), fun lacks => ?_⟩
  by_cases holds : p
  · exact (tracks_bind (first.reads holds)).misreads (second.misreads fun q => lacks ⟨holds, q⟩)
  · exact (first.misreads holds).bind determined

theorem Reads.failingWith (reads : Reads decoder a value) :
    Reads (decoder.failingWith failure) a value :=
  fun rest => Decoder.failingWith_eq_ok.mpr (reads rest)

theorem Consumes.failingWith (consumes : Consumes decoder size) :
    Consumes (decoder.failingWith failure) size :=
  fun bytes value rest read => consumes bytes value rest (Decoder.failingWith_eq_ok.mp read)

section Chains

variable {total : β → Nat} {good : β → Prop} {found : Option α}

/-- After a read the next decoder has to take what is left of the size. -/
theorem Consumes.bind (first : Consumes decoder size)
    (second : ∀ value, Consumes (next value) fun result => total result - size value) :
    Consumes (decoder >>= next) total := by
  intro bytes result rest done
  obtain ⟨value, middle, read, more⟩ := Decoder.bind_eq_ok.mp done
  have taken := first _ _ _ read
  have left : total result - size value + rest.length ≤ middle.length := second value _ _ _ more
  omega

theorem consumes_pure {result : β} (nothing : total result = 0) : Consumes (pure result) total := by
  intro bytes value rest done
  obtain ⟨rfl, rfl⟩ := Decoder.pure_eq_ok.mp done
  rw [nothing, Nat.zero_add]

theorem consumes_fail : Consumes (Decoder.fail failure) total := nofun

theorem consumes_orFail_bind (second : ∀ value, found = some value → Consumes (next value) total) :
    Consumes (Decoder.orFail failure found >>= next) total := by
  cases found with
  | none => exact consumes_fail
  | some value => exact second value rfl

theorem consumes_ofExcept_bind {outcome : Except Failure α}
    (second : ∀ value, outcome = .ok value → Consumes (next value) total) :
    Consumes (Decoder.ofExcept outcome >>= next) total := by
  cases outcome with
  | error failure => exact consumes_fail
  | ok value => exact second value rfl

theorem Consumes.parsed {count : Nat} {parse : α → Option β}
    (consumes : Consumes decoder fun _ => count) :
    Consumes (decoder >>= fun read => Decoder.orFail failure (parse read)) (fun _ => count) := by
  intro bytes value rest done
  obtain ⟨read, middle, front, last⟩ := Decoder.bind_eq_ok.mp done
  obtain ⟨_, rfl⟩ := Decoder.orFail_eq_ok.mp last
  exact consumes _ _ _ front

theorem Yields.bind (first : Yields decoder property)
    (second : ∀ value, property value → Yields (next value) good) :
    Yields (decoder >>= next) good := by
  intro bytes result rest done
  obtain ⟨value, middle, read, more⟩ := Decoder.bind_eq_ok.mp done
  exact second value (first _ _ _ read) _ _ _ more

theorem yields_bind (second : ∀ value, Yields (next value) good) : Yields (decoder >>= next) good :=
  Yields.bind (fun _ _ _ _ => trivial : Yields decoder fun _ => True) fun value _ => second value

theorem yields_orFail : Yields (Decoder.orFail failure found) (found = some ·) :=
  fun _ _ _ done => (Decoder.orFail_eq_ok.mp done).1

theorem yields_pure (holds : property value) : Yields (pure value) property := by
  intro bytes result rest done
  obtain ⟨rfl, _⟩ := Decoder.pure_eq_ok.mp done
  exact holds

end Chains

end Rules

namespace Decoder

/-- `Read::read_exact`. -/
def readExact (count : Nat) : Decoder (List UInt8) := fun bytes =>
  if count ≤ bytes.length then .ok (bytes.take count, bytes.drop count) else .error .unexpectedEof

/-- `read_exact` into an array. -/
def array (count : Nat) : Decoder (List.Vector UInt8 count) := fun bytes =>
  if length : (bytes.take count).length = count then .ok (⟨bytes.take count, length⟩, bytes.drop count)
  else .error .unexpectedEof

/-- An unsigned number of a width in bytes, least significant byte first. -/
def number (width : Nat) : Decoder Nat := do
  let bytes ← readExact width
  pure (ofLeBytes bytes)

def u8 : Decoder UInt8 := do
  let value ← number 1
  pure (UInt8.ofNat value)

def u16 : Decoder UInt16 := do
  let value ← number 2
  pure (UInt16.ofNat value)

def u32 : Decoder UInt32 := do
  let value ← number 4
  pure (UInt32.ofNat value)

def u64 : Decoder UInt64 := do
  let value ← number 8
  pure (UInt64.ofNat value)

/-- Any byte but zero is true. -/
def bool : Decoder Bool := do
  let byte ← u8
  pure (byte != 0)

/-- `VarInt::consensus_decode`, which refuses a number not in its shortest form. -/
def varInt : Decoder Nat := do
  let tag ← u8
  if tag = 0xff then
    let value ← number 8
    if value < 0x100000000 then fail .nonMinimalVarInt else pure value
  else if tag = 0xfe then
    let value ← number 4
    if value < 0x10000 then fail .nonMinimalVarInt else pure value
  else if tag = 0xfd then
    let value ← number 2
    if value < 0xfd then fail .nonMinimalVarInt else pure value
  else pure tag.toNat

/-- A byte string after its length. -/
def varBytes : Decoder (List UInt8) := do
  let length ← varInt
  readExact length

/-- `Read::take`: the decoder sees at most so many bytes. -/
def limited (limit : Nat) (decoder : Decoder α) : Decoder α := fun bytes =>
  match decoder (bytes.take limit) with
  | .error failure => .error failure
  | .ok (value, rest) => .ok (value, rest ++ bytes.drop limit)

/-- `MAX_VEC_SIZE`, to which the default `consensus_decode` limits its reader. -/
def maxVecSize : Nat := 4000000

/-- `Vec<u8>::consensus_decode`. -/
def vecU8 : Decoder (List UInt8) := limited maxVecSize varBytes

/-- So many values one after the other. -/
def times (decoder : Decoder α) : Nat → Decoder (List α)
  | 0 => pure []
  | count + 1 => do
      let value ← decoder
      let values ← times decoder count
      pure (value :: values)

/-- Values after their count. -/
def counted (width : Nat) (decoder : Decoder α) : Decoder (List α) := do
  let count ← number width
  times decoder count

/-- A byte that is zero for no value, then the value. -/
def option (decoder : Decoder α) : Decoder (Option α) := do
  let flag ← u8
  if flag = 0 then pure none
  else
    let value ← decoder
    pure (some value)

end Decoder

/-- What an encoder wrote, and how many bytes it reports. -/
structure Written where
  bytes : List UInt8
  reported : Nat
deriving DecidableEq

namespace Written

instance : Append Written := ⟨fun a b => ⟨a.bytes ++ b.bytes, a.reported + b.reported⟩⟩

/-- `Write::write`, which reports the length of what it was given. -/
def emit (bytes : List UInt8) : Written := ⟨bytes, bytes.length⟩

def concat (writes : List Written) : Written := writes.foldr (· ++ ·) ⟨[], 0⟩

/-- The encoder reports what it wrote. -/
def Exact (written : Written) : Prop := written.reported = written.bytes.length

@[simp] theorem append_bytes (a b : Written) : (a ++ b).bytes = a.bytes ++ b.bytes := rfl

@[simp] theorem emit_bytes (bytes : List UInt8) : (emit bytes).bytes = bytes := rfl

@[simp] theorem concat_nil : concat [] = ⟨[], 0⟩ := rfl

@[simp] theorem concat_cons (written : Written) (writes : List Written) :
    concat (written :: writes) = written ++ concat writes := rfl

theorem exact_emit (bytes : List UInt8) : Exact (emit bytes) := rfl

theorem Exact.append {a b : Written} (first : Exact a) (second : Exact b) : Exact (a ++ b) := by
  show a.reported + b.reported = (a.bytes ++ b.bytes).length
  rw [List.length_append, first, second]

end Written

open Written

/-- `VarInt(value).consensus_encode`. -/
def writeVarInt (value : Nat) : Written :=
  if value < 0xfd then emit (leBytes 1 value)
  else if value < 0x10000 then emit (0xfd :: leBytes 2 value)
  else if value < 0x100000000 then emit (0xfe :: leBytes 4 value)
  else emit (0xff :: leBytes 8 value)

/-- `Vec<u8>::consensus_encode`. -/
def writeVecU8 (bytes : List UInt8) : Written := writeVarInt bytes.length ++ emit bytes

def writeOption (write : α → Written) : Option α → Written
  | none => emit [0]
  | some value => emit [1] ++ write value

/-- Values after their count, which is cut to its width. -/
def writeCounted (width : Nat) (write : α → Written) (values : List α) : Written :=
  emit (leBytes width values.length) ++ concat (values.map write)

def writeBool (value : Bool) : Written := emit [if value then 1 else 0]

theorem writeVarInt_pos (value : Nat) : 0 < (writeVarInt value).bytes.length := by
  unfold writeVarInt
  split
  · simp
  · split
    · simp
    · split <;> simp

theorem writeVarInt_length_mono {a b : Nat} (le : a ≤ b) :
    (writeVarInt a).bytes.length ≤ (writeVarInt b).bytes.length := by
  unfold writeVarInt
  repeat' split
  all_goals simp only [emit_bytes, List.length_cons, leBytes_length]
  all_goals omega

theorem writeVecU8_length_mono {a b : List UInt8} (le : a.length ≤ b.length) :
    (writeVecU8 a).bytes.length ≤ (writeVecU8 b).bytes.length := by
  have prefixes := writeVarInt_length_mono le
  simp only [writeVecU8, append_bytes, emit_bytes, List.length_append]
  omega

section Primitives

open Decoder

variable {bytes rest : List UInt8} {width value : Nat} {count : Nat} {convert : Nat → α}

theorem readExact_eq_ok {read : List UInt8} :
    readExact count bytes = .ok (read, rest) ↔ bytes = read ++ rest ∧ read.length = count := by
  unfold readExact
  constructor
  · intro done
    split at done
    · rename_i enough
      simp only [Except.ok.injEq, Prod.mk.injEq] at done
      obtain ⟨rfl, rfl⟩ := done
      exact ⟨(List.take_append_drop count bytes).symm, by simp [enough]⟩
    · cases done
  · rintro ⟨rfl, rfl⟩
    simp

theorem reads_readExact (bytes : List UInt8) : Reads (readExact bytes.length) bytes bytes :=
  fun _ => readExact_eq_ok.mpr ⟨rfl, rfl⟩

theorem consumes_readExact (count : Nat) : Consumes (readExact count) (fun _ => count) := by
  intro bytes value rest read
  obtain ⟨rfl, length⟩ := readExact_eq_ok.mp read
  rw [List.length_append, length]

theorem array_eq_ok {read : List.Vector UInt8 count} :
    array count bytes = .ok (read, rest) ↔ bytes = read.toList ++ rest := by
  unfold array
  constructor
  · intro done
    split at done
    · cases done
      exact (List.take_append_drop count bytes).symm
    · cases done
  · rintro rfl
    have front : (read.toList ++ rest).take count = read.toList := by simp
    rw [dif_pos (by simp)]
    congr 2
    · exact Subtype.ext front
    · simp

theorem reads_array (value : List.Vector UInt8 count) : Reads (array count) value.toList value :=
  fun _ => array_eq_ok.mpr rfl

theorem consumes_array (count : Nat) : Consumes (array count) (fun _ => count) := by
  intro bytes value rest read
  rw [array_eq_ok.mp read]
  simp

theorem number_eq_ok :
    number width bytes = .ok (value, rest) ↔
      bytes = leBytes width value ++ rest ∧ value < 256 ^ width := by
  unfold number
  constructor
  · intro done
    obtain ⟨read, middle, front, last⟩ := Decoder.bind_eq_ok.mp done
    obtain ⟨rfl, rfl⟩ := readExact_eq_ok.mp front
    obtain ⟨rfl, rfl⟩ := Decoder.pure_eq_ok.mp last
    exact ⟨by rw [leBytes_ofLeBytes], ofLeBytes_lt read⟩
  · rintro ⟨rfl, fits⟩
    have front : readExact width (leBytes width value ++ rest) = .ok (leBytes width value, rest) :=
      readExact_eq_ok.mpr ⟨rfl, by simp⟩
    rw [Decoder.bind_of_ok front, ofLeBytes_leBytes, Nat.mod_eq_of_lt fits]
    rfl

theorem reads_number (fits : value < 256 ^ width) :
    Reads (number width) (leBytes width value) value :=
  fun _ => number_eq_ok.mpr ⟨rfl, fits⟩

theorem consumes_number (width : Nat) : Consumes (number width) (fun _ => width) := by
  intro bytes value rest read
  rw [(number_eq_ok.mp read).1]
  simp

theorem yields_number (width : Nat) : Yields (number width) (fun value => value < 256 ^ width) :=
  fun _ _ _ read => (number_eq_ok.mp read).2

theorem consumes_number_map :
    Consumes (number width >>= fun read => pure (convert read)) (fun _ => width) :=
  (consumes_number width).bind fun _ => consumes_pure (Nat.sub_self width)

theorem leBytes_toNat (byte : UInt8) : leBytes 1 byte.toNat = [byte] := by
  rw [leBytes, leBytes, Nat.mod_eq_of_lt byte.toNat_lt, UInt8.ofNat_toNat]

theorem reads_u8 (value : UInt8) : Reads u8 [value] value := by
  have read : Reads u8 (leBytes 1 value.toNat) (UInt8.ofNat value.toNat) :=
    (reads_number (by have := value.toNat_lt; omega)).map
  rwa [UInt8.ofNat_toNat, leBytes_toNat] at read

theorem reads_u16 (value : UInt16) : Reads u16 (leBytes 2 value.toNat) value := by
  have read : Reads u16 (leBytes 2 value.toNat) (UInt16.ofNat value.toNat) :=
    (reads_number (by have := value.toNat_lt; omega)).map
  rwa [UInt16.ofNat_toNat] at read

theorem reads_u32 (value : UInt32) : Reads u32 (leBytes 4 value.toNat) value := by
  have read : Reads u32 (leBytes 4 value.toNat) (UInt32.ofNat value.toNat) :=
    (reads_number (by have := value.toNat_lt; omega)).map
  rwa [UInt32.ofNat_toNat] at read

theorem reads_u64 (value : UInt64) : Reads u64 (leBytes 8 value.toNat) value := by
  have read : Reads u64 (leBytes 8 value.toNat) (UInt64.ofNat value.toNat) :=
    (reads_number (by have := value.toNat_lt; omega)).map
  rwa [UInt64.ofNat_toNat] at read

theorem consumes_u8 : Consumes u8 (fun _ => 1) := consumes_number_map
theorem consumes_u32 : Consumes u32 (fun _ => 4) := consumes_number_map
theorem consumes_u64 : Consumes u64 (fun _ => 8) := consumes_number_map

theorem u8_cons (byte : UInt8) (rest : List UInt8) : u8 (byte :: rest) = .ok (byte, rest) :=
  reads_u8 byte rest

theorem u8_eq_ok {byte : UInt8} : u8 bytes = .ok (byte, rest) ↔ bytes = byte :: rest := by
  constructor
  · intro done
    cases bytes with
    | nil =>
      have taken := consumes_u8 _ _ _ done
      simp at taken
    | cons first others =>
      rw [u8_cons] at done
      cases done
      rfl
  · rintro rfl
    exact u8_cons byte rest

theorem reads_bool (value : Bool) : Reads bool (writeBool value).bytes value := by
  intro rest
  show bool ((if value then 1 else 0) :: rest) = _
  unfold Decoder.bool
  rw [Decoder.bind_of_ok (u8_cons _ rest)]
  cases value <;> rfl

theorem consumes_bool : Consumes bool (fun _ => 1) := consumes_u8.bind fun _ => consumes_pure rfl

/-- A tagged number that must not fit a shorter form. -/
theorem taggedNumber_eq_ok {least : Nat} :
    (number width >>= fun read =>
        if read < least then fail .nonMinimalVarInt else pure read) bytes = .ok (value, rest) ↔
      bytes = leBytes width value ++ rest ∧ value < 256 ^ width ∧ least ≤ value := by
  constructor
  · intro done
    obtain ⟨read, middle, front, last⟩ := Decoder.bind_eq_ok.mp done
    obtain ⟨rfl, fits⟩ := number_eq_ok.mp front
    split at last
    · cases last
    · rename_i minimal
      obtain ⟨rfl, rfl⟩ := Decoder.pure_eq_ok.mp last
      exact ⟨rfl, fits, by omega⟩
  · rintro ⟨rfl, fits, minimal⟩
    rw [Decoder.bind_of_ok (reads_number fits rest), if_neg (by omega)]
    rfl

/-- The numbers a `varInt` reads are in their shortest form. -/
theorem varInt_eq_ok :
    varInt bytes = .ok (value, rest) ↔
      bytes = (writeVarInt value).bytes ++ rest ∧ value < 2 ^ 64 := by
  constructor
  · intro done
    obtain ⟨tag, middle, front, more⟩ := Decoder.bind_eq_ok.mp done
    obtain rfl := u8_eq_ok.mp front
    split at more
    · rename_i isTag
      obtain ⟨rfl, fits, minimal⟩ := taggedNumber_eq_ok.mp more
      refine ⟨?_, by omega⟩
      rw [isTag, writeVarInt, if_neg (by omega), if_neg (by omega), if_neg (by omega)]
      rfl
    · split at more
      · rename_i isTag
        obtain ⟨rfl, fits, minimal⟩ := taggedNumber_eq_ok.mp more
        refine ⟨?_, by omega⟩
        rw [isTag, writeVarInt, if_neg (by omega), if_neg (by omega), if_pos (by omega)]
        rfl
      · split at more
        · rename_i isTag
          obtain ⟨rfl, fits, minimal⟩ := taggedNumber_eq_ok.mp more
          refine ⟨?_, by omega⟩
          rw [isTag, writeVarInt, if_neg (by omega), if_pos (by omega)]
          rfl
        · rename_i notWide notHalf notShort
          obtain ⟨rfl, rfl⟩ := Decoder.pure_eq_ok.mp more
          have small : tag.toNat < 0xfd := by
            have bound := tag.toNat_lt
            have wide : tag.toNat ≠ 0xff := fun same => notWide (UInt8.toNat_inj.mp same)
            have half : tag.toNat ≠ 0xfe := fun same => notHalf (UInt8.toNat_inj.mp same)
            have short : tag.toNat ≠ 0xfd := fun same => notShort (UInt8.toNat_inj.mp same)
            omega
          refine ⟨?_, by omega⟩
          rw [writeVarInt, if_pos small, emit_bytes, leBytes_toNat]
          rfl
  · rintro ⟨rfl, fits⟩
    unfold writeVarInt
    split
    · rename_i small
      have byte : (UInt8.ofNat value).toNat = value := by
        rw [UInt8.toNat_ofNat']
        omega
      rw [← byte, emit_bytes, leBytes_toNat]
      have tagNot : ∀ tag : UInt8, 0xfd ≤ tag.toNat → UInt8.ofNat value ≠ tag := by
        rintro tag large rfl
        omega
      unfold varInt
      rw [List.singleton_append, Decoder.bind_of_ok (u8_cons _ _),
        if_neg (tagNot _ (by decide)), if_neg (tagNot _ (by decide)),
        if_neg (tagNot _ (by decide))]
      rfl
    · split
      · show varInt (0xfd :: (leBytes 2 value ++ rest)) = _
        unfold varInt
        rw [Decoder.bind_of_ok (u8_cons _ _), if_neg (by decide), if_neg (by decide), if_pos rfl]
        exact taggedNumber_eq_ok.mpr ⟨rfl, by omega, by omega⟩
      · split
        · show varInt (0xfe :: (leBytes 4 value ++ rest)) = _
          unfold varInt
          rw [Decoder.bind_of_ok (u8_cons _ _), if_neg (by decide), if_pos rfl]
          exact taggedNumber_eq_ok.mpr ⟨rfl, by omega, by omega⟩
        · show varInt (0xff :: (leBytes 8 value ++ rest)) = _
          unfold varInt
          rw [Decoder.bind_of_ok (u8_cons _ _), if_pos rfl]
          exact taggedNumber_eq_ok.mpr ⟨rfl, by omega, by omega⟩

theorem reads_varInt (fits : value < 2 ^ 64) : Reads varInt (writeVarInt value).bytes value :=
  fun _ => varInt_eq_ok.mpr ⟨rfl, fits⟩

theorem reads_varBytes (fits : bytes.length < 2 ^ 64) :
    Reads varBytes (writeVecU8 bytes).bytes bytes :=
  (reads_varInt fits).bind (reads_readExact bytes)

theorem varBytes_eq_ok {value : List UInt8} :
    varBytes bytes = .ok (value, rest) ↔
      bytes = (writeVecU8 value).bytes ++ rest ∧ value.length < 2 ^ 64 := by
  constructor
  · intro done
    obtain ⟨length, middle, front, last⟩ := Decoder.bind_eq_ok.mp done
    obtain ⟨rfl, rfl⟩ := readExact_eq_ok.mp last
    obtain ⟨rfl, fits⟩ := varInt_eq_ok.mp front
    exact ⟨by simp [writeVecU8], fits⟩
  · rintro ⟨rfl, fits⟩
    exact reads_varBytes fits rest

end Primitives

section Limits

open Decoder

variable {decoder : Decoder α} {limit : Nat} {bytes : List UInt8} {value : α}

theorem limited_eq_ok {rest : List UInt8} :
    limited limit decoder bytes = .ok (value, rest) ↔
      ∃ inner, decoder (bytes.take limit) = .ok (value, inner) ∧ inner ++ bytes.drop limit = rest := by
  unfold limited
  cases decoder (bytes.take limit) with
  | error failure => simp
  | ok read =>
    obtain ⟨found, inner⟩ := read
    simp only [Except.ok.injEq, Prod.mk.injEq]
    constructor
    · rintro ⟨rfl, rfl⟩
      exact ⟨inner, ⟨rfl, rfl⟩, rfl⟩
    · rintro ⟨_, ⟨rfl, rfl⟩, rfl⟩
      exact ⟨rfl, rfl⟩

theorem Reads.limited (reads : Reads decoder bytes value) (fits : bytes.length ≤ limit) :
    Reads (limited limit decoder) bytes value := by
  intro rest
  apply limited_eq_ok.mpr
  refine ⟨rest.take (limit - bytes.length), ?_, ?_⟩
  · rw [List.take_append, List.take_of_length_le fits]
    exact reads _
  · rw [List.drop_append, List.drop_eq_nil_of_le fits, List.nil_append, List.take_append_drop]

theorem Consumes.limited {size : α → Nat} (consumes : Consumes decoder size) :
    Consumes (Decoder.limited limit decoder) size := by
  intro bytes value rest done
  obtain ⟨inner, read, rfl⟩ := limited_eq_ok.mp done
  have taken := consumes _ _ _ read
  have parts := congrArg List.length (List.take_append_drop limit bytes)
  simp only [List.length_append] at parts ⊢
  omega

theorem reads_vecU8 (fits : (writeVecU8 bytes).bytes.length ≤ maxVecSize) :
    Reads vecU8 (writeVecU8 bytes).bytes bytes := by
  have short : bytes.length < 2 ^ 64 := by
    simp only [writeVecU8, append_bytes, emit_bytes, List.length_append, maxVecSize] at fits
    omega
  exact (reads_varBytes short).limited fits

theorem consumes_vecU8 : Consumes vecU8 (fun bytes => (writeVecU8 bytes).bytes.length) := by
  apply Consumes.limited
  intro bytes value rest read
  rw [(varBytes_eq_ok.mp read).1, List.length_append]

theorem yields_vecU8 :
    Yields vecU8 (fun bytes => (writeVecU8 bytes).bytes.length ≤ maxVecSize) := by
  intro bytes value rest done
  obtain ⟨inner, read, _⟩ := limited_eq_ok.mp done
  have whole := congrArg List.length (varBytes_eq_ok.mp read).1
  simp only [List.length_take, List.length_append] at whole
  omega

end Limits

section Sequences

open Decoder

variable {decoder : Decoder α} {write : α → Written} {values : List α} {width : Nat}
  {size : α → Nat} {property good : α → Prop} {value : Option α}

theorem reads_times (each : ∀ value ∈ values, Reads decoder (write value).bytes value) :
    Reads (times decoder values.length) (concat (values.map write)).bytes values := by
  induction values with
  | nil => exact reads_pure []
  | cons value values ih =>
    have first := each value (by simp)
    have others := ih fun other mem => each other (by simp [mem])
    exact first.bind ((reads_map_iff List.cons_injective).mpr others)

theorem yields_times (yields : Yields decoder property) (count : Nat) :
    Yields (times decoder count)
      (fun values => values.length = count ∧ ∀ value ∈ values, property value) := by
  induction count with
  | zero => exact yields_pure ⟨rfl, by simp⟩
  | succ count ih =>
    refine yields.bind fun value head => ih.bind fun others tail => yields_pure ?_
    exact ⟨by rw [List.length_cons, tail.1], List.forall_mem_cons.mpr ⟨head, tail.2⟩⟩

theorem consumes_times (consumes : Consumes decoder size) (count : Nat) :
    Consumes (times decoder count) (fun values => (values.map size).sum) := by
  induction count with
  | zero => exact consumes_pure rfl
  | succ count ih =>
    refine consumes.bind fun value => ih.bind fun others => consumes_pure ?_
    simp only [List.map_cons, List.sum_cons]
    omega

theorem concat_length (values : List α) :
    (concat (values.map write)).bytes.length =
      (values.map fun value => (write value).bytes.length).sum := by
  induction values with
  | nil => rfl
  | cons value values ih => simp [ih]

theorem length_le_concat {value : α} (mem : value ∈ values) :
    (write value).bytes.length ≤ (concat (values.map write)).bytes.length := by
  rw [concat_length]
  exact List.single_le_sum (by simp) _ (List.mem_map_of_mem mem)

/-- Values that are never written as nothing are not more than the bytes. -/
theorem count_le_concat (each : ∀ value ∈ values, 0 < (write value).bytes.length) :
    values.length ≤ (concat (values.map write)).bytes.length := by
  rw [concat_length]
  have longer := List.length_le_sum_of_one_le
    (values.map fun value => (write value).bytes.length) (List.forall_mem_map.mpr each)
  rwa [List.length_map] at longer

theorem length_writeCounted :
    (writeCounted width write values).bytes.length =
      width + (concat (values.map write)).bytes.length := by
  simp [writeCounted]

theorem reads_counted (fits : values.length < 256 ^ width)
    (each : ∀ value ∈ values, Reads decoder (write value).bytes value) :
    Reads (counted width decoder) (writeCounted width write values).bytes values :=
  (reads_number fits).bind (reads_times each)

theorem yields_counted (yields : Yields decoder property) :
    Yields (counted width decoder)
      (fun values => values.length < 256 ^ width ∧ ∀ value ∈ values, property value) := by
  intro bytes values rest done
  obtain ⟨count, middle, front, more⟩ := Decoder.bind_eq_ok.mp done
  have bound : count < 256 ^ width := yields_number width _ _ _ front
  obtain ⟨length, each⟩ := yields_times yields _ _ _ _ more
  exact ⟨length ▸ bound, each⟩

theorem counted_length :
    Yields (counted width decoder) (fun values => values.length < 256 ^ width) := by
  have anyValue : Yields decoder (fun _ => True) := fun _ _ _ _ => trivial
  intro bytes values rest done
  exact (yields_counted anyValue _ _ _ done).1

theorem consumes_counted (consumes : Consumes decoder fun value => (write value).bytes.length) :
    Consumes (counted width decoder) (fun values => (writeCounted width write values).bytes.length) := by
  refine (consumes_number width).bind fun count => ?_
  simp only [length_writeCounted, concat_length, Nat.add_sub_cancel_left]
  exact consumes_times consumes count

/-- Numbers that are bounded one by one from below and together from above are the bounds. -/
theorem le_of_sum_le {least most : α → Nat} (each : ∀ value, least value ≤ most value)
    (sum : (values.map most).sum ≤ (values.map least).sum) :
    ∀ value ∈ values, most value ≤ least value := by
  induction values with
  | nil => simp
  | cons first values ih =>
    simp only [List.map_cons, List.sum_cons] at sum
    have head := each first
    have others : (values.map least).sum ≤ (values.map most).sum :=
      List.sum_le_sum fun value _ => each value
    exact List.forall_mem_cons.mpr ⟨by omega, ih (by omega)⟩

/-- A list that is decoded from its own bytes has no value that takes more than was written. -/
theorem size_le_of_counted {after : List UInt8} (consumes : Consumes decoder size)
    (written : ∀ value, (write value).bytes.length ≤ size value)
    (read : counted width decoder (writeCounted width write values).bytes = .ok (values, after)) :
    ∀ value ∈ values, size value ≤ (write value).bytes.length := by
  obtain ⟨count, middle, front, more⟩ := Decoder.bind_eq_ok.mp read
  have head : width + middle.length ≤ _ := consumes_number width _ _ _ front
  have tail : (values.map size).sum + after.length ≤ middle.length :=
    consumes_times consumes _ _ _ _ more
  rw [length_writeCounted, concat_length] at head
  exact le_of_sum_le written (by omega)

/-- When the decoder takes at least a size that the writer only reaches for good values, a list
is decoded from its own bytes exactly when all its values are good. -/
theorem counted_eq_ok_iff (count : values.length < 256 ^ width) (consumes : Consumes decoder size)
    (written : ∀ value, (write value).bytes.length ≤ size value)
    (reads : ∀ value ∈ values, good value → Reads decoder (write value).bytes value)
    (sound : ∀ bytes value rest, decoder bytes = .ok (value, rest) →
      size value ≤ (write value).bytes.length → good value) :
    (∃ after, counted width decoder (writeCounted width write values).bytes =
        .ok (values, after)) ↔ ∀ value ∈ values, good value := by
  constructor
  · rintro ⟨after, read⟩ value mem
    have given : Yields decoder fun value => ∃ bytes rest, decoder bytes = .ok (value, rest) :=
      fun bytes value rest done => ⟨bytes, rest, done⟩
    obtain ⟨bytes, rest, done⟩ := (yields_counted given _ _ _ read).2 value mem
    exact sound bytes value rest done (size_le_of_counted consumes written read value mem)
  · intro all
    have whole := reads_counted count (fun value mem => reads value mem (all value mem)) []
    rw [List.append_nil] at whole
    exact ⟨[], whole⟩

theorem reads_option
    (inner : ∀ present, value = some present → Reads decoder (write present).bytes present) :
    Reads (option decoder) (writeOption write value).bytes value := by
  cases value with
  | none => exact (reads_u8 0).bind (reads_pure none)
  | some present => exact (reads_u8 1).bind (inner present rfl).map

theorem readsWhen_option
    (inner : ∀ present, value = some present →
      ReadsWhen decoder (write present).bytes present (good present)) :
    ReadsWhen (option decoder) (writeOption write value).bytes value
      (∀ present, value = some present → good present) := by
  refine ⟨fun holds => reads_option fun present some => (inner present some).reads
    (holds present some), fun lacks => ?_⟩
  cases value with
  | none =>
    refine absurd ?_ lacks
    simp
  | some present =>
    have bad : ¬ good present := fun holds => lacks fun _ same => Option.some.inj same ▸ holds
    have inside := (tracks_map (Option.some_injective α)).misreads ((inner present rfl).misreads bad)
    exact (tracks_bind (reads_u8 1)).misreads inside

theorem consumes_option (consumes : Consumes decoder fun value => (write value).bytes.length) :
    Consumes (option decoder) (fun value => (writeOption write value).bytes.length) := by
  refine consumes_u8.bind fun flag => ?_
  split
  · exact consumes_pure rfl
  · refine consumes.bind fun inner => consumes_pure ?_
    simp [writeOption]

end Sequences

/-! Text by its UTF-8 bytes. -/

def utf8 (text : String) : List UInt8 := text.toUTF8.data.toList

/-- `String::from_utf8`. -/
def ofUtf8 (bytes : List UInt8) : Option String := String.fromUTF8? ⟨⟨bytes⟩⟩

theorem ofUtf8_eq_some {bytes : List UInt8} {text : String} :
    ofUtf8 bytes = some text ↔ bytes = utf8 text := by
  unfold ofUtf8 String.fromUTF8?
  constructor
  · intro parsed
    split at parsed
    · cases parsed
      rfl
    · cases parsed
  · rintro rfl
    have valid : (⟨⟨utf8 text⟩⟩ : ByteArray).IsValidUTF8 := text.isValidUTF8
    rw [dif_pos valid]
    rfl

end Codec

import Lrc20.Lib.Codec

open Codec Codec.Decoder

/-! Reading values off a stream of bytes that arrives in chunks. -/

namespace Stream

variable {α ε : Type}

abbrev Buffer := List UInt8

/-- Calls `next` until it gives no value; `fuel` bounds the number of calls. The values, the
error if there was one, and what is left in the buffer. -/
def exhaust (next : Buffer → Except ε (Option α) × Buffer) :
    Nat → Buffer → List α × Option ε × Buffer
  | 0, buffer => ([], none, buffer)
  | fuel + 1, buffer =>
    match next buffer with
    | (.ok (some value), rest) =>
      let (values, ending) := exhaust next fuel rest
      (value :: values, ending)
    | (.ok none, rest) => ([], none, rest)
    | (.error failure, rest) => ([], some failure, rest)

/-- Puts the chunks into the buffer one by one, calling `next` after each until it gives no
value; the values up to the first error, and the error. -/
def feed (next : Buffer → Except ε (Option α) × Buffer) : Buffer → List Buffer → List α × Option ε
  | _, [] => ([], none)
  | buffer, chunk :: chunks =>
    match exhaust next ((buffer ++ chunk).length + 1) (buffer ++ chunk) with
    | (values, some failure, _) => (values, some failure)
    | (values, none, rest) =>
      let (later, ending) := feed next rest chunks
      (values ++ later, ending)

/-- Values and errors are not taken back when more bytes arrive, and values take bytes. -/
structure Incremental (next : Buffer → Except ε (Option α) × Buffer) : Prop where
  progress : ∀ buffer value rest, next buffer = (.ok (some value), rest) →
    rest.length < buffer.length
  value : ∀ buffer value rest more, next buffer = (.ok (some value), rest) →
    next (buffer ++ more) = (.ok (some value), rest ++ more)
  error : ∀ buffer failure rest more, next buffer = (.error failure, rest) →
    (next (buffer ++ more)).1 = .error failure
  waits : ∀ buffer rest, next buffer = (.ok none, rest) → rest = buffer
  empty : next [] = (.ok none, [])

/-- What the calls come to when they are made as long as there are values. -/
inductive Exhausts (next : Buffer → Except ε (Option α) × Buffer) :
    Buffer → List α × Option ε × Buffer → Prop where
  | value {buffer rest left : Buffer} {found : α} {values : List α} {ending : Option ε} :
      next buffer = (.ok (some found), rest) → Exhausts next rest (values, ending, left) →
      Exhausts next buffer (found :: values, ending, left)
  | waits {buffer rest : Buffer} :
      next buffer = (.ok none, rest) → Exhausts next buffer ([], none, rest)
  | fails {buffer rest : Buffer} {failure : ε} :
      next buffer = (.error failure, rest) → Exhausts next buffer ([], some failure, rest)

section Chunks

variable {next : Buffer → Except ε (Option α) × Buffer} {buffer left : Buffer} {values : List α}

section

variable (incremental : Incremental next)
include incremental

theorem exhausts_exhaust {fuel : Nat} (enough : buffer.length < fuel) :
    Exhausts next buffer (exhaust next fuel buffer) := by
  induction fuel generalizing buffer with
  | zero => omega
  | succ fuel ih =>
    unfold exhaust
    split
    · rename_i value rest given
      have shorter := incremental.progress _ _ _ given
      exact .value given (ih (by omega))
    · rename_i rest given
      exact .waits given
    · rename_i failure rest given
      exact .fails given

omit incremental in
theorem Exhausts.unique {a b : List α × Option ε × Buffer} (first : Exhausts next buffer a)
    (second : Exhausts next buffer b) : a = b := by
  induction first generalizing b with
  | value given _ ih =>
    cases second with
    | value other later =>
      cases given.symm.trans other
      cases ih later
      rfl
    | waits other | fails other => cases given.symm.trans other
  | waits given =>
    cases second with
    | value other _ | fails other => cases given.symm.trans other
    | waits other =>
      cases given.symm.trans other
      rfl
  | fails given =>
    cases second with
    | value other _ | waits other => cases given.symm.trans other
    | fails other =>
      cases given.symm.trans other
      rfl

/-- What is left when no value was given is given no value again. -/
theorem Exhausts.next_left (exhausts : Exhausts next buffer (values, none, left)) :
    next left = (.ok none, left) := by
  generalize result : (values, (none : Option ε), left) = outcome at exhausts
  induction exhausts generalizing values with
  | value _ _ ih =>
    cases result
    exact ih rfl
  | waits given =>
    cases result
    cases incremental.waits _ _ given
    exact given
  | fails _ => cases result

/-- Bytes that arrive later are read after what was left. -/
theorem Exhausts.append {later : List α × Option ε × Buffer} {more : Buffer}
    (exhausts : Exhausts next buffer (values, none, left))
    (others : Exhausts next (left ++ more) later) :
    Exhausts next (buffer ++ more) (values ++ later.1, later.2) := by
  generalize result : (values, (none : Option ε), left) = outcome at exhausts
  induction exhausts generalizing values with
  | value given _ ih =>
    cases result
    exact .value (incremental.value _ _ _ more given) (ih rfl)
  | waits given =>
    cases result
    cases incremental.waits _ _ given
    exact others
  | fails _ => cases result

/-- After an error the bytes that arrive later change nothing. -/
theorem Exhausts.append_of_failure {failure : ε} {more : Buffer}
    (exhausts : Exhausts next buffer (values, some failure, left)) :
    ∃ rest, Exhausts next (buffer ++ more) (values, some failure, rest) := by
  generalize result : (values, some failure, left) = outcome at exhausts
  induction exhausts generalizing values with
  | value given _ ih =>
    cases result
    obtain ⟨rest, later⟩ := ih rfl
    exact ⟨rest, .value (incremental.value _ _ _ more given) later⟩
  | waits _ => cases result
  | fails given =>
    cases result
    exact ⟨_, .fails (Prod.ext (incremental.error _ _ _ more given) rfl)⟩

/-- Feeding chunks comes to what the calls on the whole stream come to. The induction is on the
chunks; between them the buffer holds what gave no value. -/
theorem exhausts_feed (chunks : List Buffer) (waits : next buffer = (.ok none, buffer)) :
    ∃ rest, Exhausts next (buffer ++ chunks.flatten)
      ((feed next buffer chunks).1, (feed next buffer chunks).2, rest) := by
  induction chunks generalizing buffer with
  | nil => exact ⟨buffer, by simpa [feed] using .waits waits⟩
  | cons chunk chunks ih =>
    have first := exhausts_exhaust incremental (Nat.lt_succ_self (buffer ++ chunk).length)
    rw [List.flatten_cons, ← List.append_assoc]
    unfold feed
    split
    · rename_i values failure rest given
      rw [given] at first
      exact first.append_of_failure incremental
    · rename_i values rest given
      rw [given] at first
      obtain ⟨last, later⟩ := ih (first.next_left incremental)
      exact ⟨last, first.append incremental later⟩

/-- Values written one after another are given in their order, and what follows them is read as
a stream of its own. -/
theorem feed_written {write : α → Buffer} {tail : Buffer} {chunks : List Buffer}
    (reads : ∀ value ∈ values, ∀ more, next (write value ++ more) = (.ok (some value), more))
    (stream : chunks.flatten = values.flatMap write ++ tail) :
    feed next [] chunks = (values ++ (feed next [] [tail]).1, (feed next [] [tail]).2) := by
  obtain ⟨_, split⟩ := exhausts_feed incremental chunks incremental.empty
  obtain ⟨rest, last⟩ := exhausts_feed incremental [tail] incremental.empty
  rw [List.flatten_singleton] at last
  have whole : Exhausts next (values.flatMap write ++ tail)
      (values ++ (feed next [] [tail]).1, (feed next [] [tail]).2, rest) := by
    clear stream
    induction values with
    | nil => exact last
    | cons value values ih =>
      rw [List.flatMap_cons, List.append_assoc]
      exact .value (reads value List.mem_cons_self _)
        (ih fun other mem => reads other (List.mem_cons_of_mem _ mem))
  have same := split.unique (stream ▸ whole)
  simp only [Prod.mk.injEq] at same
  exact Prod.ext same.1 same.2.1

end

end Chunks

end Stream

/-! Decoders for which only the end of the input is not final. -/

namespace Codec

variable {α β : Type}

/-- A value is read off a front that alone decides it, and an error other than the end of the
input stays when more bytes follow. -/
structure Stable (decoder : Decoder α) : Prop where
  front : ∀ bytes value rest, decoder bytes = .ok (value, rest) →
    ∃ front, bytes = front ++ rest ∧ Reads decoder front value
  error : ∀ bytes failure more, decoder bytes = .error failure → failure ≠ .unexpectedEof →
    decoder (bytes ++ more) = .error failure

section StableDecoders

variable {decoder : Decoder α} {bytes rest : List UInt8} {value : α}

theorem Stable.ok (stable : Stable decoder) (more : List UInt8)
    (done : decoder bytes = .ok (value, rest)) :
    decoder (bytes ++ more) = .ok (value, rest ++ more) := by
  obtain ⟨front, rfl, reads⟩ := stable.front _ _ _ done
  rw [List.append_assoc, reads]

/-- What is left is what the bytes that were read leave. -/
theorem Stable.drop_eq (stable : Stable decoder) (done : decoder bytes = .ok (value, rest)) :
    bytes.drop (bytes.length - rest.length) = rest := by
  obtain ⟨front, rfl, _⟩ := stable.front _ _ _ done
  rw [List.length_append, Nat.add_sub_cancel, List.drop_left]

theorem stable_pure (value : α) : Stable (pure value : Decoder α) where
  front bytes _ _ done := by
    obtain ⟨rfl, rfl⟩ := pure_eq_ok.mp done
    exact ⟨[], rfl, reads_pure value⟩
  error _ _ _ failed := nomatch failed

theorem stable_fail (failure : Failure) : Stable (fail failure : Decoder α) where
  front _ _ _ done := nomatch done
  error _ _ _ failed _ := by
    cases failed
    rfl

theorem stable_ofExcept (outcome : Except Failure α) : Stable (ofExcept outcome) := by
  cases outcome with
  | error failure => exact stable_fail failure
  | ok value => exact stable_pure value

theorem stable_orFail (failure : Failure) (found : Option α) : Stable (orFail failure found) := by
  cases found with
  | none => exact stable_fail failure
  | some value => exact stable_pure value

theorem Stable.bind {next : α → Decoder β} (first : Stable decoder)
    (second : ∀ value, Stable (next value)) : Stable (decoder >>= next) where
  front bytes result rest done := by
    obtain ⟨value, middle, read, later⟩ := bind_eq_ok.mp done
    obtain ⟨a, rfl, readsFirst⟩ := first.front _ _ _ read
    obtain ⟨b, rfl, readsSecond⟩ := (second value).front _ _ _ later
    exact ⟨a ++ b, by rw [List.append_assoc], readsFirst.bind readsSecond⟩
  error bytes failure more failed final := by
    rw [bind_apply] at failed
    cases read : decoder bytes with
    | error reason =>
      rw [read] at failed
      cases failed
      exact bind_of_error (first.error _ _ more read final)
    | ok found =>
      obtain ⟨value, middle⟩ := found
      rw [read] at failed
      rw [bind_of_ok (first.ok more read)]
      exact (second value).error _ _ more failed final

theorem stable_readExact (count : Nat) : Stable (readExact count) where
  front bytes value rest done := by
    obtain ⟨rfl, rfl⟩ := readExact_eq_ok.mp done
    exact ⟨value, rfl, reads_readExact value⟩
  error bytes failure more failed final := by
    unfold readExact at failed
    split at failed
    · cases failed
    · cases failed
      exact absurd rfl final

theorem stable_array (count : Nat) : Stable (array count) where
  front bytes value rest done := ⟨value.toList, array_eq_ok.mp done, reads_array value⟩
  error bytes failure more failed final := by
    unfold array at failed
    split at failed
    · cases failed
    · cases failed
      exact absurd rfl final

theorem stable_number (width : Nat) : Stable (number width) :=
  (stable_readExact width).bind fun _ => stable_pure _

/-- A limit cuts the same bytes off however many follow. -/
theorem Stable.limited (stable : Stable decoder) (limit : Nat) :
    Stable (limited limit decoder) where
  front bytes value rest done := by
    obtain ⟨inner, read, rfl⟩ := limited_eq_ok.mp done
    obtain ⟨front, taken, reads⟩ := stable.front _ _ _ read
    have fits : front.length ≤ limit := by
      have length := congrArg List.length taken
      rw [List.length_take, List.length_append] at length
      omega
    refine ⟨front, ?_, reads.limited fits⟩
    rw [← List.append_assoc, ← taken, List.take_append_drop]
  error bytes failure more failed final := by
    unfold Decoder.limited at failed ⊢
    rw [List.take_append]
    cases read : decoder (bytes.take limit) with
    | error reason =>
      rw [read] at failed
      cases failed
      rw [stable.error _ _ _ read final]
    | ok found =>
      rw [read] at failed
      cases failed

end StableDecoders

end Codec

import Mathlib.Data.List.Basic
import Lrc20.Lib.Bytes

open ByteOrder

namespace Script

/-- One item of a script: a data push or an opcode. -/
inductive Instruction where
  | pushBytes (data : List UInt8)
  | op (code : UInt8)
deriving DecidableEq, Repr

/-- The only way the instructions of a script can end early. -/
inductive ScriptError where
  | earlyEndOfScript
deriving DecidableEq, Repr

abbrev Item := Except ScriptError Instruction

def OP_PUSHDATA1 : UInt8 := 0x4c
def OP_PUSHDATA2 : UInt8 := 0x4d
def OP_PUSHDATA4 : UInt8 := 0x4e

/-- The width of the length field that follows a push opcode, if it is one. -/
def lengthWidth (code : UInt8) : Option Nat :=
  if code = OP_PUSHDATA1 then some 1
  else if code = OP_PUSHDATA2 then some 2
  else if code = OP_PUSHDATA4 then some 4
  else none

/-- The number of bytes an opcode pushes, with what follows the length field.
`none` for an opcode that is not a push, an error for a cut length field. -/
def pushLength (code : UInt8) (rest : List UInt8) :
    Option (Except ScriptError (Nat × List UInt8)) :=
  if code < OP_PUSHDATA1 then some (.ok (code.toNat, rest))
  else match lengthWidth code with
    | none => none
    | some width =>
      if rest.length < width then some (.error .earlyEndOfScript)
      else some (.ok (ofLeBytes (rest.take width), rest.drop width))

/-- The script iterator. An early end is reported once and stops it. The fuel is
the number of bytes, which every step shortens. -/
def instructionsAux : Nat → List UInt8 → List Item
  | 0, _ => []
  | _ + 1, [] => []
  | fuel + 1, code :: rest =>
    match pushLength code rest with
    | none => .ok (.op code) :: instructionsAux fuel rest
    | some (.error e) => [.error e]
    | some (.ok (count, data)) =>
      if data.length < count then [.error .earlyEndOfScript]
      else .ok (.pushBytes (data.take count)) :: instructionsAux fuel (data.drop count)

def instructions (script : List UInt8) : List Item :=
  instructionsAux script.length script

/-- The shortest push of a byte string. -/
def pushSlice (data : List UInt8) : List UInt8 :=
  if data.length < 0x4c then UInt8.ofNat data.length :: data
  else if data.length < 0x100 then OP_PUSHDATA1 :: leBytes 1 data.length ++ data
  else if data.length < 0x10000 then OP_PUSHDATA2 :: leBytes 2 data.length ++ data
  else OP_PUSHDATA4 :: leBytes 4 data.length ++ data

/-- The script number of a non-negative integer below `256 ^ width`: no leading
zero bytes, and a sign byte when the top bit is taken. -/
def scriptInt : Nat → Nat → List UInt8
  | 0, _ => []
  | width + 1, value =>
    if value = 0 then []
    else if value < 0x80 then [UInt8.ofNat value]
    else if value < 0x100 then [UInt8.ofNat value, 0]
    else UInt8.ofNat (value % 256) :: scriptInt width (value / 256)

/-- The push of a non-negative integer: an opcode up to sixteen, a script number above. -/
def pushInt (value : Nat) : List UInt8 :=
  if value = 0 then [0]
  else if value ≤ 16 then [UInt8.ofNat (0x50 + value)]
  else pushSlice (scriptInt 8 value)

variable {code : UInt8}

theorem pushLength_shortens {rest data : List UInt8} {count : Nat}
    (push : pushLength code rest = some (.ok (count, data))) : data.length ≤ rest.length := by
  unfold pushLength at push
  split at push
  · simp only [Option.some.injEq, Except.ok.injEq, Prod.mk.injEq] at push
    rw [← push.2]
  · split at push
    · cases push
    · split at push
      · cases push
      · simp only [Option.some.injEq, Except.ok.injEq, Prod.mk.injEq] at push
        rw [← push.2, List.length_drop]
        omega

/-- Fuel beyond the length of the script changes nothing. -/
theorem instructionsAux_fuel (script : List UInt8) {fuel : Nat} (enough : script.length ≤ fuel) :
    instructionsAux fuel script = instructions script := by
  unfold instructions
  induction fuel using Nat.strongRecOn generalizing script with
  | ind fuel ih =>
    cases script with
    | nil => cases fuel <;> rfl
    | cons code rest =>
      simp only [List.length_cons] at enough ⊢
      obtain ⟨less, rfl⟩ : ∃ less, fuel = less + 1 := ⟨fuel - 1, by omega⟩
      simp only [instructionsAux]
      split
      · rw [ih less (by omega) rest (by omega)]
      · rfl
      · rename_i count data push
        have shorter := pushLength_shortens push
        have dropped : (data.drop count).length ≤ rest.length := by
          rw [List.length_drop]; omega
        split
        · rfl
        · rw [ih less (by omega) _ (by omega), ih rest.length (by omega) _ dropped]

theorem instructions_nil : instructions [] = [] := rfl

theorem instructions_op (notPush : pushLength code = fun _ => none) (rest : List UInt8) :
    instructions (code :: rest) = .ok (.op code) :: instructions rest := by
  rw [instructions, List.length_cons, instructionsAux, notPush]
  rfl

/-- An opcode with its length field and as many bytes is one instruction. -/
theorem instructions_push {code : UInt8} {field data rest : List UInt8}
    (parsed : pushLength code (field ++ (data ++ rest)) = some (.ok (data.length, data ++ rest))) :
    instructions (code :: (field ++ (data ++ rest))) =
      .ok (.pushBytes data) :: instructions rest := by
  have room : ¬ (data ++ rest).length < data.length := by simp
  have fuel : rest.length ≤ (field ++ (data ++ rest)).length := by
    simp only [List.length_append]
    omega
  rw [instructions, List.length_cons, instructionsAux, parsed]
  simp only [room, if_false, List.take_left, List.drop_left]
  rw [instructionsAux_fuel rest fuel]

theorem pushLength_field {width count : Nat} (notDirect : ¬ code < OP_PUSHDATA1)
    (isWidth : lengthWidth code = some width) (fits : count < 256 ^ width) (rest : List UInt8) :
    pushLength code (leBytes width count ++ rest) = some (.ok (count, rest)) := by
  have field : (leBytes width count ++ rest).take width = leBytes width count :=
    List.take_left' (leBytes_length width count)
  have after : (leBytes width count ++ rest).drop width = rest :=
    List.drop_left' (leBytes_length width count)
  rw [pushLength, if_neg notDirect, isWidth]
  simp only [field, after, ofLeBytes_leBytes, Nat.mod_eq_of_lt fits]
  rw [if_neg (by simp)]

theorem instructions_pushSlice {data : List UInt8} (fits : data.length < 2 ^ 32)
    (rest : List UInt8) :
    instructions (pushSlice data ++ rest) = .ok (.pushBytes data) :: instructions rest := by
  unfold pushSlice
  split
  · rename_i short
    have code : (UInt8.ofNat data.length).toNat = data.length := by
      rw [UInt8.toNat_ofNat']
      omega
    have direct : UInt8.ofNat data.length < OP_PUSHDATA1 := by
      rw [UInt8.lt_iff_toNat_lt, code]
      exact short
    apply @instructions_push (UInt8.ofNat data.length) [] data rest
    rw [pushLength, if_pos direct, code]
    rfl
  · split
    · rename_i short
      rw [List.cons_append, List.cons_append, List.append_assoc]
      exact instructions_push (pushLength_field (by decide) rfl short _)
    · split
      · rename_i short
        rw [List.cons_append, List.cons_append, List.append_assoc]
        exact instructions_push (pushLength_field (by decide) rfl short _)
      · rw [List.cons_append, List.cons_append, List.append_assoc]
        exact instructions_push (pushLength_field (by decide) rfl fits _)

theorem scriptInt_length (width value : Nat) : (scriptInt width value).length ≤ width + 1 := by
  induction width generalizing value with
  | zero => simp [scriptInt]
  | succ width ih =>
    unfold scriptInt
    have next := ih (value / 256)
    split
    · simp
    · split
      · simp
      · split <;> simp only [List.length_cons, List.length_nil] <;> omega

theorem instructions_smallInt {value : Nat} (small : value ≤ 16) (rest : List UInt8) :
    instructions (UInt8.ofNat (0x50 + value) :: rest) =
      .ok (.op (UInt8.ofNat (0x50 + value))) :: instructions rest := by
  have byte : (UInt8.ofNat (0x50 + value)).toNat = 0x50 + value := by
    rw [UInt8.toNat_ofNat']
    omega
  have above : ∀ code : UInt8, code.toNat ≤ 0x4e → UInt8.ofNat (0x50 + value) ≠ code := by
    rintro code low rfl
    omega
  have direct : ¬ UInt8.ofNat (0x50 + value) < OP_PUSHDATA1 := by
    rw [UInt8.lt_iff_toNat_lt, byte]
    show ¬ 0x50 + value < 0x4c
    omega
  apply instructions_op
  funext after
  rw [pushLength, if_neg direct, lengthWidth, if_neg (above _ (by decide)),
    if_neg (above _ (by decide)), if_neg (above _ (by decide))]

theorem instructions_pushInt (value : Nat) (rest : List UInt8) :
    ∃ item, instructions (pushInt value ++ rest) = .ok item :: instructions rest ∧
      ∀ data, item = .pushBytes data → data.length ≤ 9 := by
  unfold pushInt
  split
  · refine ⟨.pushBytes [], @instructions_pushSlice [] (by decide) rest, ?_⟩
    rintro data ⟨⟩
    simp
  · split
    · rename_i small
      exact ⟨.op (UInt8.ofNat (0x50 + value)), instructions_smallInt small rest, by rintro data ⟨⟩⟩
    · have length := scriptInt_length 8 value
      refine ⟨.pushBytes (scriptInt 8 value), instructions_pushSlice (by omega) rest, ?_⟩
      rintro data ⟨⟩
      exact length

end Script

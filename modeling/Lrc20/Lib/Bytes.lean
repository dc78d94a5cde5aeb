import Mathlib.Data.Nat.Basic
import Mathlib.Algebra.Order.Ring.Nat
import Mathlib.Tactic.Ring

namespace ByteOrder

/-- The `count` low bytes of a number, least significant first. -/
def leBytes : Nat → Nat → List UInt8
  | 0, _ => []
  | count + 1, value => UInt8.ofNat (value % 256) :: leBytes count (value / 256)

/-- The number a little-endian byte string denotes. -/
def ofLeBytes : List UInt8 → Nat
  | [] => 0
  | byte :: rest => byte.toNat + 256 * ofLeBytes rest

variable (count value : Nat)

/-- The `count` low bytes of a number, most significant first. -/
def beBytes : List UInt8 :=
  (leBytes count value).reverse

variable (bytes : List UInt8)

/-- The number a big-endian byte string denotes. -/
def ofBeBytes : Nat :=
  ofLeBytes bytes.reverse

/-- The number whose big-endian bytes are the little-endian bytes of `value`. -/
def swapBytes : Nat :=
  ofBeBytes (leBytes count value)

@[simp] theorem leBytes_length : (leBytes count value).length = count := by
  induction count generalizing value with
  | zero => rfl
  | succ count ih => simp [leBytes, ih]

@[simp] theorem beBytes_length : (beBytes count value).length = count := by
  simp [beBytes]

theorem ofLeBytes_lt : ofLeBytes bytes < 256 ^ bytes.length := by
  induction bytes with
  | nil => simp [ofLeBytes]
  | cons byte rest ih =>
    have small : byte.toNat < 256 := byte.toNat_lt
    simp only [ofLeBytes, List.length_cons, Nat.pow_succ]
    omega

/-- Reading back the low bytes of a number gives the number reduced to their width. -/
theorem ofLeBytes_leBytes : ofLeBytes (leBytes count value) = value % 256 ^ count := by
  induction count generalizing value with
  | zero => simp [leBytes, ofLeBytes, Nat.mod_one]
  | succ count ih =>
    have small : value % 256 < 256 := Nat.mod_lt _ (by decide)
    have byte : (UInt8.ofNat (value % 256)).toNat = value % 256 := by
      simp [UInt8.toNat_ofNat']
    have split : value % (256 * 256 ^ count) =
        value % 256 + 256 * (value / 256 % 256 ^ count) := Nat.mod_mul
    simp only [leBytes, ofLeBytes, ih, byte]
    rw [Nat.pow_succ, Nat.mul_comm (256 ^ count) 256, split]

theorem leBytes_ofLeBytes : leBytes bytes.length (ofLeBytes bytes) = bytes := by
  induction bytes with
  | nil => rfl
  | cons byte rest ih =>
    have small : byte.toNat < 256 := byte.toNat_lt
    have low : (byte.toNat + 256 * ofLeBytes rest) % 256 = byte.toNat := by omega
    have high : (byte.toNat + 256 * ofLeBytes rest) / 256 = ofLeBytes rest := by omega
    simp only [List.length_cons, ofLeBytes, leBytes, low, high, ih, UInt8.ofNat_toNat]

theorem beBytes_ofBeBytes : beBytes bytes.length (ofBeBytes bytes) = bytes := by
  have back := leBytes_ofLeBytes bytes.reverse
  rw [List.length_reverse] at back
  rw [beBytes, ofBeBytes, back, List.reverse_reverse]

theorem ofBeBytes_beBytes : ofBeBytes (beBytes count value) = value % 256 ^ count := by
  simp [ofBeBytes, beBytes, ofLeBytes_leBytes]

theorem beBytes_injective {count a b : Nat} (aFits : a < 256 ^ count) (bFits : b < 256 ^ count)
    (same : beBytes count a = beBytes count b) : a = b := by
  have read := congrArg ofBeBytes same
  rwa [ofBeBytes_beBytes, ofBeBytes_beBytes, Nat.mod_eq_of_lt aFits, Nat.mod_eq_of_lt bFits] at read

theorem swapBytes_lt : swapBytes count value < 256 ^ count := by
  have bound := ofLeBytes_lt (leBytes count value).reverse
  simpa [swapBytes, ofBeBytes] using bound

/-- Swapping twice only reduces the number to its width. -/
theorem swapBytes_swapBytes : swapBytes count (swapBytes count value) = value % 256 ^ count := by
  have back := leBytes_ofLeBytes (leBytes count value).reverse
  rw [List.length_reverse, leBytes_length] at back
  unfold swapBytes ofBeBytes
  rw [back, List.reverse_reverse, ofLeBytes_leBytes]

/-- Strings cut into chunks of one positive length are cut in one way. -/
theorem flatten_injective {α : Type} {width : Nat} (positive : 0 < width) {a b : List (List α)}
    (aWidth : ∀ chunk ∈ a, chunk.length = width) (bWidth : ∀ chunk ∈ b, chunk.length = width)
    (same : a.flatten = b.flatten) : a = b := by
  have nonempty : ∀ {chunks : List (List α)}, (∀ chunk ∈ chunks, chunk.length = width) →
      chunks.flatten = [] → chunks = [] := by
    intro chunks widths empty
    apply List.eq_nil_iff_forall_not_mem.mpr
    intro chunk mem
    have width := widths chunk mem
    rw [List.flatten_eq_nil_iff.mp empty chunk mem, List.length_nil] at width
    omega
  induction a generalizing b with
  | nil => exact (nonempty bWidth same.symm).symm
  | cons chunk rest ih =>
    cases b with
    | nil => exact nonempty aWidth same
    | cons chunk' rest' =>
      have lengths : chunk.length = chunk'.length := by
        rw [aWidth chunk (by simp), bWidth chunk' (by simp)]
      obtain ⟨heads, tails⟩ := List.append_inj same lengths
      have others : rest = rest' := ih (fun c mem => aWidth c (by simp [mem]))
        (fun c mem => bWidth c (by simp [mem])) tails
      rw [heads, others]

/-- Where one encoding of the elements determines another, so it does for lists. -/
theorem map_eq_map_of_determined {α β γ : Type} {f : α → β} {g : α → γ} {a b : List α}
    (determined : ∀ x ∈ a, ∀ y ∈ b, f x = f y → g x = g y)
    (same : a.map f = b.map f) : a.map g = b.map g := by
  induction a generalizing b with
  | nil =>
    cases b with
    | nil => rfl
    | cons y rest => simp at same
  | cons x rest ih =>
    cases b with
    | nil => simp at same
    | cons y rest' =>
      simp only [List.map_cons, List.cons.injEq] at same
      have heads : g x = g y := determined x (by simp) y (by simp) same.1
      have tails : rest.map g = rest'.map g :=
        ih (fun u uMem v vMem => determined u (by simp [uMem]) v (by simp [vMem])) same.2
      rw [List.map_cons, List.map_cons, heads, tails]

end ByteOrder

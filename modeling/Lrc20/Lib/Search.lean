import Mathlib.Data.List.Induction
import Lrc20.Lib.Outcome

namespace Search

variable {α β ε : Type} {items : List α}

/-- The first item an inspection accepts. The first inspection that fails ends the search. -/
def firstMatch (inspect : α → Except ε Bool) : List α → Except ε (Option α)
  | [] => .ok none
  | item :: rest =>
    match inspect item with
    | .error failure => .error failure
    | .ok true => .ok (some item)
    | .ok false => firstMatch inspect rest

/-- Every item up to the first accepted one is good. -/
def GoodUpTo (accepts good : α → Prop) : List α → Prop
  | [] => True
  | item :: rest => good item ∧ (¬ accepts item → GoodUpTo accepts good rest)

/-- The inspection tells of every good item whether it is accepted, and fails on every item
that is not good. -/
structure Inspects (inspect : α → Except ε Bool) (accepts good : α → Prop)
    [DecidablePred accepts] (items : List α) : Prop where
  answers : ∀ item ∈ items, good item → inspect item = .ok (decide (accepts item))
  fails : ∀ item ∈ items, ¬ good item → ∃ failure, inspect item = .error failure

section Rules

variable {inspect : α → Except ε Bool} {accepts good : α → Prop} [DecidablePred accepts]

/-- An inspection may be followed case by case. -/
theorem inspects_of_each (each : ∀ item ∈ items,
    good item ∧ inspect item = .ok (decide (accepts item)) ∨
      ¬ good item ∧ ∃ failure, inspect item = .error failure) :
    Inspects inspect accepts good items where
  answers item mem holds := (each item mem).elim And.right fun fails => absurd holds fails.1
  fails item mem bad := (each item mem).elim (fun holds => absurd holds.1 bad) And.right

theorem Inspects.tail {item : α} {rest : List α}
    (inspects : Inspects inspect accepts good (item :: rest)) :
    Inspects inspect accepts good rest where
  answers := fun other mem => inspects.answers other (List.mem_cons_of_mem item mem)
  fails := fun other mem => inspects.fails other (List.mem_cons_of_mem item mem)

theorem firstMatch_eq_find? (inspects : Inspects inspect accepts good items)
    (goodUpTo : GoodUpTo accepts good items) :
    firstMatch inspect items = .ok (items.find? fun item => decide (accepts item)) := by
  induction items with
  | nil => rfl
  | cons item rest ih =>
    unfold firstMatch
    rw [inspects.answers item (by simp) goodUpTo.1]
    by_cases accepted : accepts item
    · simp [accepted]
    · simp [accepted, ih inspects.tail (goodUpTo.2 accepted)]

theorem goodUpTo_of_firstMatch (inspects : Inspects inspect accepts good items) {result : Option α}
    (ended : firstMatch inspect items = .ok result) : GoodUpTo accepts good items := by
  induction items with
  | nil => trivial
  | cons item rest ih =>
    unfold firstMatch at ended
    by_cases legible : good item
    · refine ⟨legible, ?_⟩
      intro refused
      rw [inspects.answers item (by simp) legible] at ended
      simp only [refused, decide_false] at ended
      exact ih inspects.tail ended
    · obtain ⟨failure, failed⟩ := inspects.fails item (by simp) legible
      rw [failed] at ended
      cases ended

end Rules

theorem split_at_last {P : α → Prop} (some : ∃ item ∈ items, P item) :
    ∃ before item after, items = before ++ item :: after ∧ P item ∧ ∀ other ∈ after, ¬ P other := by
  induction items with
  | nil =>
    obtain ⟨item, mem, -⟩ := some
    cases mem
  | cons first rest ih =>
    by_cases later : ∃ item ∈ rest, P item
    · obtain ⟨before, item, after, rfl, holds, none⟩ := ih later
      exact ⟨first :: before, item, after, rfl, holds, none⟩
    · obtain ⟨item, mem, holds⟩ := some
      rcases List.mem_cons.mp mem with rfl | inRest
      · exact ⟨[], item, rest, rfl, holds, fun other there has => later ⟨other, there, has⟩⟩
      · exact absurd ⟨item, inRest, holds⟩ later

/-- What the last item that gives something gives. -/
def lastSome (give : α → Option β) (items : List α) : Option β :=
  items.foldl (fun found item => (give item).or found) none

theorem lastSome_append_singleton (give : α → Option β) (items : List α) (item : α) :
    lastSome give (items ++ [item]) = (give item).or (lastSome give items) := by
  simp [lastSome]

theorem lastSome_eq_some_iff {give : α → Option β} {result : β} :
    lastSome give items = some result ↔ ∃ before item after, items = before ++ item :: after ∧
      give item = some result ∧ ∀ other ∈ after, give other = none := by
  induction items using List.reverseRecOn with
  | nil => simp [lastSome]
  | append_singleton items last ih =>
    rw [lastSome_append_singleton]
    cases gives : give last with
    | some value =>
      simp only [Option.some_or, Option.some.injEq]
      constructor
      · rintro rfl
        exact ⟨items, last, [], rfl, gives, by simp⟩
      · rintro ⟨before, item, after, split, given, silent⟩
        -- The last item speaks, so nothing comes after the one found.
        rcases List.eq_nil_or_concat after with rfl | ⟨others, final, rfl⟩
        · obtain ⟨rfl, same⟩ := List.append_inj' split rfl
          cases same
          exact Option.some.inj (gives.symm.trans given)
        · have whole : items ++ [last] = (before ++ item :: others) ++ [final] := by
            simp [split]
          obtain ⟨_, ends⟩ := List.append_inj' whole rfl
          cases ends
          rw [silent last (by simp)] at gives
          cases gives
    | none =>
      rw [Option.none_or, ih]
      constructor
      · rintro ⟨before, item, after, rfl, given, silent⟩
        refine ⟨before, item, after ++ [last], by simp, given, ?_⟩
        intro other mem
        rcases List.mem_append.mp mem with there | isLast
        · exact silent other there
        · rw [List.mem_singleton.mp isLast, gives]
      · rintro ⟨before, item, after, split, given, silent⟩
        rcases List.eq_nil_or_concat after with rfl | ⟨others, final, rfl⟩
        · obtain ⟨_, same⟩ := List.append_inj' split rfl
          cases same
          rw [gives] at given
          cases given
        · have whole : items ++ [last] = (before ++ item :: others) ++ [final] := by
            simp [split]
          obtain ⟨rfl, _⟩ := List.append_inj' whole rfl
          exact ⟨before, item, others, rfl, given, fun other mem =>
            silent other (by simp [mem])⟩

end Search

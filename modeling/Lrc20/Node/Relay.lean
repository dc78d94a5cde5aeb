import Lrc20.Node.Authorization
import Lrc20.Storage.Converters

/-! What the stored signatures of a transaction come back as. -/

namespace Lrc20.Node

open Storage TxCheck Runs SparkTables SparkSignatureData

/-! ### The rows of one transaction -/

section Rows

variable {β γ : Type} [DecidableEq β] {table other : AList fun _ : SparkHash × β => γ}
  {hash : SparkHash} {entry : (_ : SparkHash × β) × γ} {key : β} {value : γ} {place : Nat}

/-- The rows of a transaction, in the order of the table. -/
def rowsOf (table : AList fun _ : SparkHash × β => γ) (hash : SparkHash) :
    List ((_ : SparkHash × β) × γ) :=
  table.entries.filter fun entry => entry.1.1 = hash

theorem mem_rowsOf :
    entry ∈ rowsOf table hash ↔ entry.1.1 = hash ∧ table.lookup entry.1 = some entry.2 := by
  rw [rowsOf, List.mem_filter, decide_eq_true_iff, and_comm, ← Option.mem_def, AList.mem_lookup_iff]

theorem nodup_rowsOf : ((rowsOf table hash).map fun entry => entry.1.2).Nodup := by
  have keys : ((rowsOf table hash).map Sigma.fst).Nodup :=
    table.nodupKeys.sublist List.filter_sublist
  rw [← Function.comp_def, ← List.map_map]
  refine keys.map_on ?_
  intro a aMem b bMem same
  obtain ⟨x, xMem, rfl⟩ := List.mem_map.mp aMem
  obtain ⟨y, yMem, rfl⟩ := List.mem_map.mp bMem
  exact Prod.ext ((mem_rowsOf.mp xMem).1.trans (mem_rowsOf.mp yMem).1.symm) same

theorem length_rowsOf {keys : List β} (same : ∀ key, (hash, key) ∈ table ↔ key ∈ keys) :
    (rowsOf table hash).length = keys.dedup.length := by
  rw [← List.length_map fun entry => entry.1.2]
  refine ((List.perm_ext_iff_of_nodup nodup_rowsOf keys.nodup_dedup).mpr ?_).length_eq
  intro key
  rw [List.mem_dedup, ← same key, List.mem_map, ← AList.lookup_isSome, Option.isSome_iff_exists]
  constructor
  · rintro ⟨⟨⟨_, _⟩, value⟩, mem, rfl⟩
    obtain ⟨rfl, found⟩ := mem_rowsOf.mp mem
    exact ⟨value, found⟩
  · rintro ⟨value, found⟩
    exact ⟨⟨(hash, key), value⟩, mem_rowsOf.mpr ⟨rfl, found⟩, rfl⟩

theorem place_of_lookup (found : table.lookup (hash, key) = some value) :
    ∃ place : Nat, (rowsOf table hash)[place]? = some ⟨(hash, key), value⟩ :=
  List.mem_iff_getElem?.mp (mem_rowsOf.mpr ⟨rfl, found⟩)

theorem lookup_of_place (there : (rowsOf table hash)[place]? = some entry) :
    table.lookup (hash, entry.1.2) = some entry.2 := by
  obtain ⟨rfl, found⟩ := mem_rowsOf.mp (List.mem_of_getElem? there)
  exact found

theorem place_unique {a b : (_ : SparkHash × β) × γ} {place' : Nat}
    (isA : (rowsOf table hash)[place]? = some a) (isB : (rowsOf table hash)[place']? = some b)
    (same : a.1.2 = b.1.2) : place = place' := by
  have within := (List.getElem?_eq_some_iff.mp isA).1
  refine (List.getElem?_inj (by simpa using within) (@nodup_rowsOf _ _ _ table hash)).mp ?_
  rw [List.getElem?_map, List.getElem?_map, isA, isB, Option.map_some, Option.map_some, same]

/-- Some order of the rows begins with a given one. -/
theorem exists_first (found : table.lookup (hash, key) = some value) :
    ∃ other : AList fun _ : SparkHash × β => γ, other.entries.Perm table.entries ∧
      (rowsOf other hash)[0]? = some ⟨(hash, key), value⟩ := by
  obtain ⟨front, back, split⟩ := List.append_of_mem (AList.mem_lookup_iff.mp found)
  have perm : (⟨(hash, key), value⟩ :: (front ++ back)).Perm table.entries :=
    split ▸ List.perm_middle.symm
  exact ⟨⟨_, (List.perm_nodupKeys perm).mpr table.nodupKeys⟩, perm, by simp [rowsOf]⟩

end Rows

/-! ### Insertions -/

/-- The owner signature with the index that the code reads in it. -/
def atInput (owner : OperatorSpecificOwnerSignature) : OperatorSpecificOwnerSignature :=
  { owner with inputIndex := some (owner.inputIndex.getD 0) }

def rowOwner (row : UserSignatureRow) : OperatorSpecificOwnerSignature :=
  ⟨row.operatorPublicKey, row.signature, some row.index.toInt32.toUInt32⟩

/-- The owner signatures of the data. -/
def ownersOf (inserted : List SparkSignatureData) : List OperatorSpecificOwnerSignature :=
  inserted.filterMap operatorSpecificOwnerSignature

/-- A row as insertions leave it: the signature and index that came first, the operator that came
last. -/
def OfOwners (owners : List OperatorSpecificOwnerSignature) (bytes : Bytes64)
    (row : UserSignatureRow) : Prop :=
  ∃ first ∈ owners, ∃ last ∈ owners,
    first.ownerSignature.bytes = bytes ∧ last.ownerSignature.bytes = bytes ∧
    row = ⟨last.operatorIdentityPublicKey, first.ownerSignature,
      (first.inputIndex.getD 0).toUInt16.toInt16⟩

/-- The operators' signatures and the rows of the owners' come from the inserted data, and none
of their keys is missing. -/
structure Inserted (hash : SparkHash) (inserted : List SparkSignatureData)
    (tables : SparkTables) : Prop where
  operator : ∀ key, (hash, key) ∈ tables.operatorSignatures ↔
    key ∈ inserted.map operatorPubkey
  signature : ∀ key signature, tables.operatorSignatures.lookup (hash, key) = some signature →
    ∃ data ∈ inserted, data.operatorPubkey = key ∧ data.operatorSignature = signature
  owner : ∀ bytes, (hash, bytes) ∈ tables.userSignatures ↔
    bytes ∈ (ownersOf inserted).map fun owner => owner.ownerSignature.bytes
  row : ∀ bytes row, tables.userSignatures.lookup (hash, bytes) = some row →
    OfOwners (ownersOf inserted) bytes row

variable {hash : SparkHash} {inserted : List SparkSignatureData} {tables rows : SparkTables}
  {data : SparkSignatureData}

theorem inserted_step (before : Inserted hash inserted tables) (same : data.tokenTxHash = hash) :
    Inserted hash (inserted ++ [data]) (tables.insertSignatureData data) := by
  subst same
  have grows : ∀ owner ∈ ownersOf inserted, owner ∈ ownersOf (inserted ++ [data]) := by
    intro owner mem
    rw [ownersOf, List.filterMap_append]
    exact List.mem_append_left _ mem
  refine ⟨?_, ?_, ?_, ?_⟩
  · intro key
    rw [operatorSignatures_insertSignatureData, AList.mem_insert, before.operator]
    simp [or_comm]
  · intro key signature
    rw [operatorSignatures_insertSignatureData]
    by_cases own : key = data.operatorPubkey
    · rw [own, AList.lookup_insert]
      rintro ⟨⟩
      exact ⟨data, by simp, rfl, rfl⟩
    · rw [AList.lookup_insert_ne (by simpa using own)]
      intro found
      obtain ⟨earlier, mem, isKey, isSignature⟩ := before.signature key signature found
      exact ⟨earlier, List.mem_append_left _ mem, isKey, isSignature⟩
  · intro bytes
    have known := before.owner bytes
    unfold insertSignatureData
    unfold ownersOf at known ⊢
    cases owned : data.operatorSpecificOwnerSignature with
    | none => simpa [owned] using known
    | some owner => simp [owned, AList.mem_insert, known, or_comm]
  · intro bytes row found
    have earlier : ∀ row, tables.userSignatures.lookup (data.tokenTxHash, bytes) = some row →
        OfOwners (ownersOf (inserted ++ [data])) bytes row := by
      intro row found
      obtain ⟨first, firstMem, last, lastMem, is⟩ := before.row bytes row found
      exact ⟨first, grows first firstMem, last, grows last lastMem, is⟩
    unfold insertSignatureData at found
    cases owned : data.operatorSpecificOwnerSignature with
    | none =>
      rw [owned] at found
      exact earlier row found
    | some owner =>
      have mem : owner ∈ ownersOf (inserted ++ [data]) := by simp [ownersOf, owned]
      simp only [owned] at found
      by_cases own : bytes = owner.ownerSignature.bytes
      · rw [own, AList.lookup_insert] at found
        obtain rfl := Option.some.inj found
        cases stored : tables.userSignatures.lookup
            (data.tokenTxHash, owner.ownerSignature.bytes) with
        | none => exact ⟨owner, mem, owner, mem, own.symm, own.symm, rfl⟩
        | some row =>
          -- only the operator of a stored row changes
          obtain ⟨first, firstMem, _, _, isFirst, _, rfl⟩ := before.row _ _ stored
          exact ⟨first, grows first firstMem, owner, mem, isFirst.trans own.symm, own.symm, rfl⟩
      · rw [AList.lookup_insert_ne (by simpa using own)] at found
        exact earlier row found

theorem inserted_foldl (operators : ∀ key, (hash, key) ∉ tables.operatorSignatures)
    (users : ∀ bytes, (hash, bytes) ∉ tables.userSignatures)
    (same : ∀ data ∈ inserted, data.tokenTxHash = hash) :
    Inserted hash inserted (inserted.foldl insertSignatureData tables) := by
  induction inserted using List.reverseRecOn with
  | nil =>
    refine ⟨by simp [operators], ?_, by simp [users, ownersOf], ?_⟩
    · intro key signature found
      exact absurd (AList.lookup_isSome.mp (Option.isSome_of_eq_some found)) (operators key)
    · intro bytes row found
      exact absurd (AList.lookup_isSome.mp (Option.isSome_of_eq_some found)) (users bytes)
  | append_singleton before data ih =>
    rw [List.foldl_append]
    exact inserted_step (ih fun data mem => same data (by simp [mem])) (same data (by simp))

/-- The same tables, with their signatures in another order. -/
structure Reordered (tables rows : SparkTables) : Prop where
  transactions : rows.transactions = tables.transactions
  operators : rows.operatorSignatures.entries.Perm tables.operatorSignatures.entries
  users : rows.userSignatures.entries.Perm tables.userSignatures.entries

theorem Inserted.reordered (done : Inserted hash inserted tables) (order : Reordered tables rows) :
    Inserted hash inserted rows := by
  have operator := fun key => AList.perm_lookup (a := (hash, key)) order.operators
  have user := fun bytes => AList.perm_lookup (a := (hash, bytes)) order.users
  refine ⟨fun key => ?_, fun key => ?_, fun bytes => ?_, fun bytes => ?_⟩
  · rw [← AList.lookup_isSome, operator, AList.lookup_isSome]
    exact done.operator key
  · rw [operator]
    exact done.signature key
  · rw [← AList.lookup_isSome, user, AList.lookup_isSome]
    exact done.owner bytes
  · rw [user]
    exact done.row bytes

/-! ### What comes back -/

/-- Operator and owner are paired by the place of their rows. -/
theorem mem_getSparkSignatures :
    data ∈ rows.getSparkSignatures hash ↔
      ∃ place entry, (rowsOf rows.operatorSignatures hash)[place]? = some entry ∧
        data = ⟨(rowsOf rows.userSignatures hash)[place]?.map fun user => rowOwner user.2,
          entry.1.2, entry.2, hash,
          if place = 0 then rows.getRevocationSecretKeys hash else []⟩ := by
  unfold getSparkSignatures
  simp only [List.mem_map, Prod.exists, List.mem_zipIdx_iff_getElem?]
  constructor
  · rintro ⟨entry, place, there, rfl⟩
    exact ⟨place, entry, there, rfl⟩
  · rintro ⟨place, entry, there, rfl⟩
    exact ⟨entry, place, there, rfl⟩

/-- Every operator signature and every owner signature appears, the latter with the operator it
names, its index and its type. -/
def Relayed (inserted result : List SparkSignatureData) : Prop :=
  ∀ data ∈ inserted,
    (∃ back ∈ result, back.operatorPubkey = data.operatorPubkey ∧
      back.operatorSignature = data.operatorSignature) ∧
    ∀ owner, data.operatorSpecificOwnerSignature = some owner →
      ∃ back ∈ result, back.operatorSpecificOwnerSignature = some (atInput owner)

/-- Every owner signature appears beside the operator it was inserted with. -/
def Paired (inserted result : List SparkSignatureData) : Prop :=
  ∀ data ∈ inserted, ∀ owner, data.operatorSpecificOwnerSignature = some owner →
    ∃ back ∈ result, back.operatorPubkey = data.operatorPubkey ∧
      back.operatorSpecificOwnerSignature = some (atInput owner)

/-- An operator has one signature, the bytes of an owner signature occur with one operator, index
and type, the indices fit their column, and there are as many operators as owner signatures. -/
structure Relayable (inserted : List SparkSignatureData) : Prop where
  operators : ∀ a ∈ inserted, ∀ b ∈ inserted, a.operatorPubkey = b.operatorPubkey →
    a.operatorSignature = b.operatorSignature
  owners : ∀ a ∈ ownersOf inserted, ∀ b ∈ ownersOf inserted,
    a.ownerSignature.bytes = b.ownerSignature.bytes → atInput a = atInput b
  indices : ∀ owner ∈ ownersOf inserted, IndexFits (owner.inputIndex.getD 0)
  enough : ((ownersOf inserted).map fun owner => owner.ownerSignature.bytes).dedup.length ≤
    (inserted.map operatorPubkey).dedup.length

section Result

variable (done : Inserted hash inserted rows)
include done

theorem rowOwner_row (relayable : Relayable inserted) {bytes : Bytes64} {row : UserSignatureRow}
    (found : rows.userSignatures.lookup (hash, bytes) = some row) :
    ∃ owner ∈ ownersOf inserted, owner.ownerSignature.bytes = bytes ∧
      rowOwner row = atInput owner := by
  obtain ⟨first, firstMem, last, lastMem, isFirst, isLast, rfl⟩ := done.row bytes row found
  have same := relayable.owners last lastMem first firstMem (isLast.trans isFirst.symm)
  refine ⟨first, firstMem, isFirst, ?_⟩
  have operator : last.operatorIdentityPublicKey = first.operatorIdentityPublicKey :=
    (OperatorSpecificOwnerSignature.mk.inj same).1
  rw [rowOwner, atInput, operator, (index_kept_iff _).mpr (relayable.indices first firstMem)]

theorem relayed_of_relayable (relayable : Relayable inserted) :
    Relayed inserted (rows.getSparkSignatures hash) := by
  intro data mem
  refine ⟨?_, fun owner owned => ?_⟩
  · have known := (done.operator data.operatorPubkey).mpr (List.mem_map_of_mem mem)
    obtain ⟨signature, found⟩ := Option.isSome_iff_exists.mp (AList.lookup_isSome.mpr known)
    obtain ⟨place, there⟩ := place_of_lookup found
    obtain ⟨other, otherMem, isKey, rfl⟩ := done.signature _ _ found
    exact ⟨_, mem_getSparkSignatures.mpr ⟨place, _, there, rfl⟩, rfl,
      relayable.operators other otherMem data mem isKey⟩
  · have ownerMem : owner ∈ ownersOf inserted := List.mem_filterMap.mpr ⟨data, mem, owned⟩
    have known := (done.owner owner.ownerSignature.bytes).mpr (List.mem_map.mpr ⟨_, ownerMem, rfl⟩)
    obtain ⟨row, found⟩ := Option.isSome_iff_exists.mp (AList.lookup_isSome.mpr known)
    obtain ⟨place, there⟩ := place_of_lookup found
    obtain ⟨same, sameMem, isSame, isRow⟩ := rowOwner_row done relayable found
    have within : place < (rowsOf rows.operatorSignatures hash).length := by
      have below := (List.getElem?_eq_some_iff.mp there).1
      rw [length_rowsOf done.owner] at below
      rw [length_rowsOf done.operator]
      exact below.trans_le relayable.enough
    refine ⟨_, mem_getSparkSignatures.mpr ⟨place, _, List.getElem?_eq_getElem within, rfl⟩, ?_⟩
    rw [there, Option.map_some, isRow, relayable.owners same sameMem owner ownerMem isSame]

theorem rows_of_back {back : SparkSignatureData} {owner : OperatorSpecificOwnerSignature}
    (isBack : back ∈ rows.getSparkSignatures hash)
    (owned : back.operatorSpecificOwnerSignature = some (atInput owner)) :
    ∃ (place : Nat) (entry : (_ : SparkHash × PublicKey) × SparkSignature) (row : UserSignatureRow),
      (rowsOf rows.operatorSignatures hash)[place]? = some entry ∧
      back.operatorPubkey = entry.1.2 ∧
      (rowsOf rows.userSignatures hash)[place]? =
        some ⟨(hash, owner.ownerSignature.bytes), row⟩ ∧ rowOwner row = atInput owner := by
  obtain ⟨place, entry, operator, rfl⟩ := mem_getSparkSignatures.mp isBack
  obtain ⟨⟨⟨_, bytes⟩, row⟩, there, isRow⟩ := Option.map_eq_some_iff.mp owned
  obtain ⟨rfl, found⟩ := mem_rowsOf.mp (List.mem_of_getElem? there)
  obtain ⟨first, _, _, _, rfl, _, rfl⟩ := done.row bytes row found
  have same : first.ownerSignature = owner.ownerSignature :=
    (OperatorSpecificOwnerSignature.mk.inj isRow).2.1
  exact ⟨place, entry, _, operator, rfl, same ▸ there, isRow⟩

theorem relayable_of_relayed (relayed : Relayed inserted (rows.getSparkSignatures hash)) :
    Relayable inserted := by
  have back : ∀ owner ∈ ownersOf inserted, ∃ (place : Nat) (row : UserSignatureRow),
      place < (rowsOf rows.operatorSignatures hash).length ∧
      (rowsOf rows.userSignatures hash)[place]? =
        some ⟨(hash, owner.ownerSignature.bytes), row⟩ ∧ rowOwner row = atInput owner := by
    intro owner mem
    obtain ⟨data, dataMem, owned⟩ := List.mem_filterMap.mp mem
    obtain ⟨_, isBack, isOwner⟩ := (relayed data dataMem).2 owner owned
    obtain ⟨place, entry, row, there, -, isRow⟩ := rows_of_back done isBack isOwner
    exact ⟨place, row, (List.getElem?_eq_some_iff.mp there).1, isRow⟩
  have owners : ∀ a ∈ ownersOf inserted, ∀ b ∈ ownersOf inserted,
      a.ownerSignature.bytes = b.ownerSignature.bytes → atInput a = atInput b := by
    intro a aMem b bMem same
    obtain ⟨place, row, -, isA, fromA⟩ := back a aMem
    obtain ⟨place', row', -, isB, fromB⟩ := back b bMem
    obtain rfl := place_unique isA isB same
    rw [isA] at isB
    obtain ⟨-, rfl⟩ := Sigma.mk.inj (Option.some.inj isB)
    exact fromA.symm.trans fromB
  refine ⟨?_, owners, ?_, ?_⟩
  · intro a aMem b bMem same
    have signature : ∀ data ∈ inserted, rows.operatorSignatures.lookup
        (hash, data.operatorPubkey) = some data.operatorSignature := by
      intro data mem
      obtain ⟨_, isBack, isKey, isSignature⟩ := (relayed data mem).1
      obtain ⟨place, entry, there, rfl⟩ := mem_getSparkSignatures.mp isBack
      rw [← isKey, ← isSignature]
      exact lookup_of_place there
    have found := signature a aMem
    rw [same, signature b bMem] at found
    exact (Option.some.inj found).symm
  · intro owner mem
    obtain ⟨place, row, -, there, isOwner⟩ := back owner mem
    obtain ⟨first, firstMem, _, _, isFirst, _, rfl⟩ := done.row _ _ (lookup_of_place there)
    have index := (OperatorSpecificOwnerSignature.mk.inj isOwner).2.2
    have same := (OperatorSpecificOwnerSignature.mk.inj
      (owners first firstMem owner mem isFirst)).2.2
    rw [Option.some.inj same] at index
    exact (index_kept_iff _).mp (Option.some.inj index)
  · -- a row beyond the operators' would have to come back at another place
    rw [← length_rowsOf done.owner, ← length_rowsOf done.operator]
    by_contra short
    have there := List.getElem?_eq_getElem (Nat.lt_of_not_le short)
    obtain ⟨first, firstMem, _, _, isFirst, -⟩ := done.row _ _ (lookup_of_place there)
    obtain ⟨place, row, within, isRow, -⟩ := back first firstMem
    have := place_unique isRow there isFirst
    omega

end Result

/-- Where there is an owner signature, there is one operator. -/
def Lone (inserted : List SparkSignatureData) : Prop :=
  ∀ a ∈ inserted, ∀ b ∈ inserted, a.operatorSpecificOwnerSignature.isSome →
    a.operatorPubkey = b.operatorPubkey

theorem paired_of_lone (done : Inserted hash inserted rows)
    (relayed : Relayed inserted (rows.getSparkSignatures hash)) (lone : Lone inserted) :
    Paired inserted (rows.getSparkSignatures hash) := by
  intro data mem owner owned
  obtain ⟨_, isBack, isOwner⟩ := (relayed data mem).2 owner owned
  refine ⟨_, isBack, ?_, isOwner⟩
  obtain ⟨place, entry, there, rfl⟩ := mem_getSparkSignatures.mp isBack
  obtain ⟨other, otherMem, isKey, -⟩ := done.signature _ _ (lookup_of_place there)
  rw [lone data mem other otherMem (Option.isSome_of_eq_some owned)]
  exact isKey.symm

/-- The rows can come in an order that puts an owner signature beside any operator. -/
theorem lone_of_paired (done : Inserted hash inserted tables)
    (paired : ∀ rows, Reordered tables rows → Paired inserted (rows.getSparkSignatures hash)) :
    Lone inserted := by
  intro a aMem b bMem hasOwner
  obtain ⟨owner, owned⟩ := Option.isSome_iff_exists.mp hasOwner
  have operator := (done.operator b.operatorPubkey).mpr (List.mem_map_of_mem bMem)
  have user := (done.owner owner.ownerSignature.bytes).mpr
    (List.mem_map.mpr ⟨owner, List.mem_filterMap.mpr ⟨a, aMem, owned⟩, rfl⟩)
  obtain ⟨signature, found⟩ := Option.isSome_iff_exists.mp (AList.lookup_isSome.mpr operator)
  obtain ⟨row, rowFound⟩ := Option.isSome_iff_exists.mp (AList.lookup_isSome.mpr user)
  obtain ⟨operators, operatorsPerm, operatorFirst⟩ := exists_first found
  obtain ⟨users, usersPerm, userFirst⟩ := exists_first rowFound
  have order : Reordered tables ⟨tables.transactions, operators, users⟩ :=
    ⟨rfl, operatorsPerm, usersPerm⟩
  obtain ⟨_, isBack, isKey, isOwner⟩ := paired _ order a aMem owner owned
  obtain ⟨place, entry, _, there, isEntry, isRow, -⟩ :=
    rows_of_back (done.reordered order) isBack isOwner
  obtain rfl : place = 0 := place_unique isRow userFirst rfl
  rw [there] at operatorFirst
  obtain rfl := Option.some.inj operatorFirst
  exact isKey.symm.trans isEntry

/-! ### The peer -/

section Peer

variable {prims : Primitives} {peer : SparkTables} {tx : TokenTransaction}
  {inputs : List TokenLeafToSpend}

/-- The secret at an index is that of the leaf which the input there names. -/
def SecretAt (prims : Primitives) (tables : SparkTables) (inputs : List TokenLeafToSpend)
    (index : UInt32) (secret : SecretKey) : Prop :=
  ∃ input row, inputs[index.toNat]? = some input ∧ tables.output input.outPoint = some row ∧
    prims.publicKeyOf secret = row.revocationPubkey

theorem secretAt_iff {index : UInt32} {secret : SecretKey} :
    SecretAt prims tables inputs index secret ↔
      ∃ place leaf, getSparkPrevout prims tables inputs index.toNat = some (place, leaf) ∧
        prims.publicKeyOf secret = leaf.revocationPublicKey := by
  unfold SecretAt getSparkPrevout
  cases inputs[index.toNat]? with
  | none => simp
  | some input =>
    cases found : tables.getSparkTxWithOutputs input.parentOutputHash with
    | some parent =>
      simp only [found, leaf_eq_output found, Option.map_map, Option.map_eq_some_iff]
      constructor
      · rintro ⟨_, row, ⟨⟩, there, right⟩
        exact ⟨_, _, ⟨row, there, rfl⟩, right⟩
      · rintro ⟨_, _, ⟨row, there, ⟨⟩⟩, right⟩
        exact ⟨input, row, rfl, there, right⟩
    | none =>
      refine iff_of_false ?_ (by simp [found])
      rintro ⟨_, row, ⟨⟩, there, -⟩
      have stored := getSparkTxWithOutputs_isSome there
      rw [TokenLeafToSpend.outPoint, found] at stored
      cases stored

theorem secretAt_setRevocationSecretKey {place : SparkOutPoint} {stored secret : SecretKey}
    {index : UInt32} :
    SecretAt prims (tables.setRevocationSecretKey place stored) inputs index secret ↔
      SecretAt prims tables inputs index secret := by
  unfold SecretAt setRevocationSecretKey
  simp only [output_modifyOutput]
  refine exists_congr fun input => ?_
  split
  · cases tables.output input.outPoint with
    | none => simp
    | some row => simp
  · rfl

theorem checkRevocationSecrets_iff {secrets : List SparkSignatureLeafData} :
    (checkRevocationSecrets prims inputs secrets tables).2 = true ↔
      ∀ known ∈ secrets, ∀ secret ∈ known.revocationSecret,
        SecretAt prims tables inputs known.tokenTxLeafIndex secret := by
  induction secrets generalizing tables with
  | nil => simp [checkRevocationSecrets]
  | cons known rest ih =>
    rw [List.forall_mem_cons]
    unfold checkRevocationSecrets
    cases known.revocationSecret with
    | none => simpa using ih
    | some secret =>
      simp only [Option.mem_def, Option.some.injEq, forall_eq', secretAt_iff]
      split
      case h_1 missing => simp [missing]
      case h_2 place leaf found =>
        split
        case isTrue right =>
          rw [ih]
          simp only [secretAt_setRevocationSecretKey]
          simp only [Option.mem_def, secretAt_iff]
          exact (and_iff_right ⟨place, leaf, found, right⟩).symm
        case isFalse wrong => simp [found, wrong]

/-- Data with the right signatures is accepted exactly when its secrets are right. -/
theorem accepts_iff_secrets (found : peer.getSparkTxWithOutputs data.tokenTxHash = some tx)
    (listed : data.operatorPubkey ∈ tx.sparkOperatorIdentityPublicKeys)
    (signed : data.operatorSignature.verify prims data.operatorPubkey (tx.hash prims) none)
    (owns : ∀ outputsToSpend, tx.input = .transfer outputsToSpend →
      checkOwnerSignature prims peer outputsToSpend (tx.hash prims) data) :
    (checkSparkSignatureData prims peer data).2 = true ↔
      ∀ outputsToSpend, tx.input = .transfer outputsToSpend →
        ∀ known ∈ data.outputsToSpendData, ∀ secret ∈ known.revocationSecret,
          SecretAt prims peer outputsToSpend known.tokenTxLeafIndex secret := by
  unfold checkSparkSignatureData
  simp only [found, listed, signed, not_true_eq_false, if_false]
  cases kind : tx.input with
  | mint issuer signature timestamp => simp
  | transfer outputsToSpend =>
    simp only [owns outputsToSpend kind, if_true, checkRevocationSecrets_iff,
      TokenTransactionInput.transfer.injEq, forall_eq']

theorem mem_getRevocationSecretKeys {known : SparkSignatureLeafData} :
    known ∈ tables.getRevocationSecretKeys hash ↔
      ∃ place row index secret, tables.output place = some row ∧ row.spend = some (hash, index) ∧
        row.revocationSecretKey = some secret ∧ known = ⟨UInt32.ofNat index, some secret⟩ := by
  unfold getRevocationSecretKeys
  simp only [List.mem_filterMap, List.mem_filter, Prod.exists, mem_allOutputs, decide_eq_true_eq,
    Option.map_eq_some_iff]
  constructor
  · rintro ⟨place, row, ⟨there, _, index, spend, rfl⟩, secret, is, rfl⟩
    exact ⟨place, row, index, secret, there, spend, is, by simp [spend]⟩
  · rintro ⟨place, row, index, secret, there, spend, is, rfl⟩
    exact ⟨place, row, ⟨there, _, index, spend, rfl⟩, secret, is, by simp [spend]⟩

/-- A secret known for a leaf the transaction spends belongs to the leaf found at its index in
the transaction as it is read back. A leaf listed twice has the index of its last place and is
read back once. -/
def SecretsPlaced (prims : Primitives) (tables : SparkTables) (hash : SparkHash) : Prop :=
  ∀ tx outputsToSpend, tables.getSparkTxWithOutputs hash = some tx →
    tx.input = .transfer outputsToSpend → ∀ place row index secret,
      tables.output place = some row → row.spend = some (hash, index) →
      row.revocationSecretKey = some secret →
      SecretAt prims tables outputsToSpend (UInt32.ofNat index) secret

/-- Every peer with the same transactions accepts every element of the result. -/
def AcceptedByPeers (prims : Primitives) (tables : SparkTables)
    (result : List SparkSignatureData) : Prop :=
  ∀ peer : SparkTables, peer.getSparkTxWithOutputs = tables.getSparkTxWithOutputs →
    ∀ back ∈ result, (checkSparkSignatureData prims peer back).2 = true

/-- The signatures of an element that comes back are right, so its secrets decide. -/
theorem back_accepted_iff (done : Inserted hash inserted rows) (relayable : Relayable inserted)
    (own : ∀ data ∈ inserted, data.tokenTxHash = hash)
    (verified : ∀ data ∈ inserted, (checkSparkSignatureData prims tables data).2 = true)
    (same : peer.getSparkTxWithOutputs = tables.getSparkTxWithOutputs) {back : SparkSignatureData}
    (isBack : back ∈ rows.getSparkSignatures hash) :
    ∃ tx, tables.getSparkTxWithOutputs hash = some tx ∧
      ((checkSparkSignatureData prims peer back).2 = true ↔
        ∀ outputsToSpend, tx.input = .transfer outputsToSpend →
          ∀ known ∈ back.outputsToSpendData, ∀ secret ∈ known.revocationSecret,
            SecretAt prims tables outputsToSpend known.tokenTxLeafIndex secret) := by
  have prevouts : getSparkPrevout prims peer = getSparkPrevout prims tables := by
    unfold getSparkPrevout
    rw [same]
  obtain ⟨place, entry, there, rfl⟩ := mem_getSparkSignatures.mp isBack
  obtain ⟨data, mem, isKey, isSignature⟩ := done.signature _ _ (lookup_of_place there)
  obtain ⟨tx, found, listed, signed, -⟩ := checkSparkSignatureData_accepts (verified data mem)
  rw [own data mem] at found
  rw [isKey] at listed
  rw [isKey, isSignature] at signed
  refine ⟨tx, found, ?_⟩
  rw [accepts_iff_secrets (same ▸ found) listed signed fun outputsToSpend transfer => ?_]
  · simp only [secretAt_iff, prevouts]
  cases user : (rowsOf rows.userSignatures hash)[place]? with
  | none => rfl
  | some row =>
    obtain ⟨owner, ownerMem, -, isOwner⟩ := rowOwner_row done relayable (lookup_of_place user)
    obtain ⟨other, otherMem, owned⟩ := List.mem_filterMap.mp ownerMem
    obtain ⟨otherTx, otherFound, -, -, owns⟩ :=
      checkSparkSignatureData_accepts (verified other otherMem)
    rw [own other otherMem, found] at otherFound
    obtain rfl := Option.some.inj otherFound
    have passes := owns outputsToSpend transfer
    unfold checkOwnerSignature at passes ⊢
    rw [owned] at passes
    rw [Option.map_some, isOwner, prevouts]
    exact passes

theorem acceptedByPeers_iff (done : Inserted hash inserted rows) (relayable : Relayable inserted)
    (transactions : rows.transactions = tables.transactions)
    (own : ∀ data ∈ inserted, data.tokenTxHash = hash)
    (verified : ∀ data ∈ inserted, (checkSparkSignatureData prims tables data).2 = true) :
    AcceptedByPeers prims tables (rows.getSparkSignatures hash) ↔
      (inserted ≠ [] → SecretsPlaced prims tables hash) := by
  have secrets : rows.getRevocationSecretKeys hash = tables.getRevocationSecretKeys hash := by
    unfold getRevocationSecretKeys allOutputs
    rw [transactions]
  constructor
  · intro accepted nonempty tx outputsToSpend found transfer place row index secret there spend is
    obtain ⟨data, mem⟩ := List.exists_mem_of_ne_nil _ nonempty
    have known := (done.operator data.operatorPubkey).mpr (List.mem_map_of_mem mem)
    obtain ⟨signature, stored⟩ := Option.isSome_iff_exists.mp (AList.lookup_isSome.mpr known)
    obtain ⟨at', there'⟩ := place_of_lookup stored
    have within := Nat.zero_lt_of_lt (List.getElem?_eq_some_iff.mp there').1
    have first := mem_getSparkSignatures.mpr ⟨0, _, List.getElem?_eq_getElem within, rfl⟩
    obtain ⟨same, isSame, iff⟩ := back_accepted_iff done relayable own verified rfl first
    obtain rfl := Option.some.inj (found.symm.trans isSame)
    refine iff.mp (accepted tables rfl _ first) outputsToSpend transfer ⟨_, some secret⟩ ?_ secret rfl
    show _ ∈ rows.getRevocationSecretKeys hash
    rw [secrets]
    exact mem_getRevocationSecretKeys.mpr ⟨place, row, index, secret, there, spend, is, rfl⟩
  · intro placed peer same back isBack
    obtain ⟨tx, found, iff⟩ := back_accepted_iff done relayable own verified same isBack
    refine iff.mpr fun outputsToSpend transfer known mem secret is => ?_
    obtain ⟨place, entry, there, rfl⟩ := mem_getSparkSignatures.mp isBack
    obtain ⟨data, dataMem, -⟩ := done.signature _ _ (lookup_of_place there)
    simp only at mem
    split at mem
    case isTrue =>
      rw [secrets] at mem
      obtain ⟨at', row, index, _, stored, spend, secretIs, rfl⟩ := mem_getRevocationSecretKeys.mp mem
      obtain rfl := Option.some.inj is
      exact placed (List.ne_nil_of_mem dataMem) tx outputsToSpend found transfer at' row index _
        stored spend secretIs
    case isFalse => cases mem

end Peer

theorem transactions_foldl (inserted : List SparkSignatureData) (tables : SparkTables) :
    (inserted.foldl insertSignatureData tables).transactions = tables.transactions := by
  induction inserted generalizing tables with
  | nil => rfl
  | cons data rest ih => rw [List.foldl_cons, ih, transactions_insertSignatureData]

/-- Whatever the order of the rows, the data come back whole and every peer takes every element
as it is, exactly when an operator has one signature, the bytes of an owner signature occur with
one operator, index and type, the indices fit their column, there are as many operators as owner
signatures, and the secrets that come with the first element are found at their indices; beside
their operators they come back in every order exactly when, in addition, there is one operator. -/
theorem signatures_relayed_iff (prims : Primitives) (hash : SparkHash) (tables : SparkTables)
    (inserted : List SparkSignatureData)
    (operators : ∀ key, (hash, key) ∉ tables.operatorSignatures)
    (users : ∀ bytes, (hash, bytes) ∉ tables.userSignatures)
    (own : ∀ data ∈ inserted, data.tokenTxHash = hash)
    (verified : ∀ data ∈ inserted, (checkSparkSignatureData prims tables data).2 = true) :
    let stored := inserted.foldl insertSignatureData tables
    let condition := Relayable inserted ∧ (inserted ≠ [] → SecretsPlaced prims tables hash)
    (∀ rows, Reordered stored rows →
      (Relayed inserted (rows.getSparkSignatures hash) ∧
        AcceptedByPeers prims tables (rows.getSparkSignatures hash) ↔ condition)) ∧
    ((∀ rows, Reordered stored rows → Relayed inserted (rows.getSparkSignatures hash) ∧
        Paired inserted (rows.getSparkSignatures hash) ∧
        AcceptedByPeers prims tables (rows.getSparkSignatures hash)) ↔
      condition ∧ Lone inserted) := by
  intro stored condition
  have done := inserted_foldl operators users own
  have exactly : ∀ rows, Reordered stored rows → (Relayed inserted (rows.getSparkSignatures hash) ∧
      AcceptedByPeers prims tables (rows.getSparkSignatures hash) ↔ condition) := by
    intro rows order
    have done := done.reordered order
    have transactions := order.transactions.trans (transactions_foldl inserted tables)
    constructor
    · rintro ⟨relayed, accepted⟩
      have relayable := relayable_of_relayed done relayed
      exact ⟨relayable, (acceptedByPeers_iff done relayable transactions own verified).mp accepted⟩
    · rintro ⟨relayable, placed⟩
      exact ⟨relayed_of_relayable done relayable,
        (acceptedByPeers_iff done relayable transactions own verified).mpr placed⟩
  refine ⟨exactly, fun all => ⟨?_, ?_⟩, fun ⟨holds, lone⟩ rows order => ?_⟩
  · obtain ⟨relayed, -, accepted⟩ := all stored ⟨rfl, .refl _, .refl _⟩
    exact (exactly stored ⟨rfl, .refl _, .refl _⟩).mp ⟨relayed, accepted⟩
  · exact lone_of_paired done fun rows order => (all rows order).2.1
  · obtain ⟨relayed, accepted⟩ := (exactly rows order).mpr holds
    exact ⟨relayed, paired_of_lone (done.reordered order) relayed lone, accepted⟩

/-- The tables with a mint and its transfer. -/
def withTransfer : SparkTables :=
  (runFrom (SparkNode.step .plain true) SparkNode.new
    [.newSparkTxs [plainMint "a" 5, signedTransfer]]).tables

theorem withTransfer_unsigned :
    withTransfer.operatorSignatures.keys = [] ∧ withTransfer.userSignatures.keys = [] := by
  decide +kernel

theorem both_owner_signatures_relayed :
    let inserted := [ownerSigned (.repeating 4) (some (.repeating 4)),
      ownerSigned (.repeating 5) (some (.repeating 5))]
    let stored := inserted.foldl insertSignatureData withTransfer
    ∀ rows, Reordered stored rows →
      Relayed inserted (rows.getSparkSignatures (signedTransfer.hash .plain)) := by
  intro inserted stored rows order
  have iff := (signatures_relayed_iff .plain (signedTransfer.hash .plain) withTransfer inserted
    (by simp [AList.mem_keys, withTransfer_unsigned]) (by simp [AList.mem_keys, withTransfer_unsigned])
    (by decide +kernel) (by decide +kernel)).1 rows order
  have secrets : ∀ entry ∈ withTransfer.allOutputs, entry.2.revocationSecretKey = none := by
    decide +kernel
  refine (iff.mpr ⟨⟨by decide +kernel, by decide +kernel, ?_, by decide +kernel⟩, ?_⟩).1
  · unfold IndexFits
    decide +kernel
  · intro _ tx outputsToSpend _ _ place row index secret there _ known
    cases (secrets (place, row) (mem_allOutputs.mpr there)).symm.trans known

/-- One operator passes on two signatures of the owner: the second does not come back. -/
theorem second_owner_signature_lost :
    let inserted := [ownerSigned (.repeating 4) (some (.repeating 4)),
      ownerSigned (.repeating 4) none]
    let stored := inserted.foldl insertSignatureData withTransfer
    let result := stored.getSparkSignatures (signedTransfer.hash .plain)
    (∀ data ∈ inserted, (checkSparkSignatureData .plain withTransfer data).2 = true) ∧
      result.length = 1 ∧ ¬ Relayed inserted result := by
  intro inserted stored result
  refine ⟨by decide +kernel, by decide +kernel, fun relayed => ?_⟩
  have first := (relayed (ownerSigned (.repeating 4) (some (.repeating 4))) (by simp [inserted])).2
    _ rfl
  have second := (relayed (ownerSigned (.repeating 4) none) (by simp [inserted])).2 _ rfl
  revert first second
  decide +kernel

end Lrc20.Node

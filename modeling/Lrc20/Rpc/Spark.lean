import Lrc20.Node.Spark

/-! The supply check of the Spark RPC service. -/

open ByteOrder FixedWidth Lrc20.Storage Lrc20.TxCheck Lrc20.Node Runs SparkTables

namespace Lrc20.Rpc

/-- The errors of `tonic::Status`, and a panic of the handler. -/
inductive RpcFailure where
  | invalidArgument (message : String)
  | internal (message : String)
  | panicked
deriving DecidableEq, Repr

def supplyExceeded : RpcFailure := .invalidArgument "Total supply exceeds max supply"

/-- `u128::to_be` on a little-endian machine. -/
def toBe (value : U128) : U128 :=
  ⟨swapBytes 16 value.val, lt_of_lt_of_eq (swapBytes_lt 16 value.val) (by decide)⟩

/-- The check of a mint against the announced supply in `send_spark_signature` and
`verify_spark_tx`, where announcements are enforced. The sum over the stored leaves wraps,
the sum over the new ones saturates. -/
def checkSupply (l1 : L1Tables) (tables : SparkTables) (tx : TokenTransaction) :
    Except RpcFailure Unit :=
  match tx.input with
  | .transfer _ => .ok ()
  | .mint issuer _ _ =>
    match l1.getTokenPubkeyInfo issuer with
    | none => .error (.invalidArgument "Token pubkey is not yet announced")
    | some info =>
      match info.announcement with
      | none => .error .panicked
      | some announcement =>
        let maxSupply := toBe announcement.maxSupply
        let totalSupply :=
          ((tables.getIssueLeavesByTokenPubkey issuer).map TokenLeafOutput.amount).sum
        let addedSupply := saturatingSum (tx.leavesToCreate.map TokenLeafOutput.amount)
        if 0 < maxSupply ∧ maxSupply < saturatingAdd totalSupply addedSupply then
          .error supplyExceeded
        else .ok ()

/-- Operators submit signatures for one mint: the tables, the messages on their way to the
controller, and for each call that got as far as the supply check whether it was rejected
there. -/
structure Submissions where
  tables : SparkTables
  inbox : List TokenTransaction
  rejected : List Bool

namespace Submissions

variable (prims : Primitives) (l1 : L1Tables) (tx : TokenTransaction)

inductive Event where
  /-- A call of `send_spark_signature` up to the message for the controller. -/
  | call (sigs : List SparkSignatureData)
  /-- The controller handles the next message. -/
  | store
  /-- The checker handles signature data. -/
  | sign (sigs : List SparkSignatureData)

def step (state : Submissions) : Event → Submissions
  | .call sigs =>
    if sigs.any fun data => data.tokenTxHash ≠ tx.hash prims then state
    else match checkSupply l1 state.tables tx with
      | .error failure =>
        { state with rejected := state.rejected ++ [decide (failure = supplyExceeded)] }
      | .ok _ =>
        { state with
          rejected := state.rejected ++ [false]
          inbox := if (state.tables.getSparkTxWithOutputs (tx.hash prims)).isSome then
            state.inbox else state.inbox ++ [tx] }
  | .store =>
    match state.inbox with
    | [] => state
    | next :: rest =>
      { state with tables := (handleNewSparkTxs prims [next] state.tables).1, inbox := rest }
  | .sign sigs => { state with tables := (checkSparkSignatures prims state.tables ∅ sigs).1 }

end Submissions

/-! ### When the check is right -/

theorem toBe_pos {value : U128} (positive : 0 < value) : 0 < toBe value := by
  have nonzero : value.val ≠ 0 := Nat.pos_iff_ne_zero.mp positive
  have fits : value.val < 256 ^ 16 := lt_of_lt_of_eq value.isLt (by decide)
  have back := swapBytes_swapBytes 16 value.val
  rw [Nat.mod_eq_of_lt fits] at back
  show 0 < swapBytes 16 value.val
  apply Nat.pos_iff_ne_zero.mpr
  intro zero
  rw [zero] at back
  exact nonzero (back.symm.trans (by decide))

/-- Whether the check rejects a mint that creates `created`, given what the stored leaves
add up to. -/
def Rejects (maxSupply : U128) (created issued : Nat) : Prop :=
  (toBe maxSupply).val < min (issued % 2 ^ 128 + created) (2 ^ 128 - 1)

instance (maxSupply : U128) (created issued : Nat) :
    Decidable (Rejects maxSupply created issued) :=
  inferInstanceAs (Decidable (_ < _))

/-- Everything a mint creates, of whatever token. -/
def createdAmount (tx : TokenTransaction) : Nat :=
  exactSum (tx.leavesToCreate.map TokenLeafOutput.amount)

section Check

variable {prims : Primitives} {l1 : L1Tables} {tx : TokenTransaction} {issuer : PublicKey}
  {signature : Option OperatorSpecificOwnerSignature} {timestamp : UInt64}
  {announcement : TokenPubkeyAnnouncement}

/-- The check of a mint of an announced token with a limit, on the exact sums. -/
theorem checkSupply_eq (mint : tx.input = .mint issuer signature timestamp)
    (announced : (l1.getTokenPubkeyInfo issuer).bind TokenPubkeyInfo.announcement =
      some announcement) (limited : 0 < announcement.maxSupply) {tables : SparkTables}
    {stored : List TokenTransaction} (recorded : Recorded prims tables.fixedRow stored) :
    checkSupply l1 tables tx =
      if Rejects announcement.maxSupply (createdAmount tx)
          ((stored.map (mintedAmount issuer)).sum)
      then .error supplyExceeded else .ok () := by
  obtain ⟨info, found, holds⟩ := Option.bind_eq_some_iff.mp announced
  have sum := recorded.issueSum issuer
  have cut : ∀ total created limit : Nat,
      min (total + min created limit) limit = min (total + created) limit := by
    intro total created limit
    omega
  unfold checkSupply Rejects createdAmount
  rw [mint]
  simp only [found, holds, toBe_pos limited, true_and, Fin.lt_def, saturatingAdd_val,
    saturatingSum_val, wrappingSum_val, sum, cut]
  exact if_congr Iff.rfl rfl rfl

end Check

/-! ### Submitting one mint many times -/

namespace Submissions

/-- Every call so far was rejected exactly when the supply exceeds the limit. -/
def RejectionsRight (maxSupply supply : Nat) (rejected : List Bool) : Prop :=
  ∀ verdict ∈ rejected, verdict = decide (maxSupply < supply)

/-- What the stored mints other than `tx` amount to. -/
def otherMints (prims : Primitives) (stored : List TokenTransaction) (tx : TokenTransaction)
    (token : TokenPubkey) : Nat :=
  ((stored.filter fun other => other.hash prims ≠ tx.hash prims).map (mintedAmount token)).sum

/-- What the stored mints amount to together with `tx`, which counts once. -/
def supplyWith (prims : Primitives) (stored : List TokenTransaction) (tx : TokenTransaction)
    (token : TokenPubkey) : Nat :=
  otherMints prims stored tx token + mintedAmount token tx

/-- The transaction is among the stored ones. -/
def IsStored (prims : Primitives) (stored : List TokenTransaction) (tx : TokenTransaction) : Prop :=
  ∃ other ∈ stored, other.hash prims = tx.hash prims

/-- The controller can store the mint: its leaf ids are distinct and not taken, it lists no
operator twice, and it has an issuer signature. -/
def CanStore (stored : List TokenTransaction) (tx : TokenTransaction) : Prop :=
  (tx.leavesToCreate.map TokenLeafOutput.id).Nodup ∧
  (∀ other ∈ stored, ∀ leaf ∈ other.leavesToCreate,
    leaf.id ∉ tx.leavesToCreate.map TokenLeafOutput.id) ∧
  tx.sparkOperatorIdentityPublicKeys.Nodup ∧ (SparkTransactionRow.ofTransaction tx).isSome

instance (prims : Primitives) (stored : List TokenTransaction) (tx : TokenTransaction) :
    Decidable (IsStored prims stored tx) :=
  inferInstanceAs (Decidable (∃ other ∈ stored, other.hash prims = tx.hash prims))

instance (stored : List TokenTransaction) (tx : TokenTransaction) :
    Decidable (CanStore stored tx) :=
  inferInstanceAs (Decidable (_ ∧ _ ∧ _ ∧ _))

/-- The limit as the check reads it separates the totals as the check computes them the way
the announced limit separates the supply. A supply within the limit has to leave room for
the mint once more as soon as it is stored. -/
structure CheckSeparates (prims : Primitives) (stored : List TokenTransaction)
    (tx : TokenTransaction) (token : TokenPubkey) (maxSupply : U128) : Prop where
  within : supplyWith prims stored tx token ≤ maxSupply.val →
    min (otherMints prims stored tx token + createdAmount tx +
      if IsStored prims stored tx ∨ CanStore stored tx then mintedAmount token tx else 0)
      (2 ^ 128 - 1) ≤ (toBe maxSupply).val
  beyond : maxSupply.val < supplyWith prims stored tx token →
    (toBe maxSupply).val < min ((otherMints prims stored tx token +
      if IsStored prims stored tx then mintedAmount token tx else 0) % 2 ^ 128 +
        createdAmount tx) (2 ^ 128 - 1)

instance (prims : Primitives) (stored : List TokenTransaction) (tx : TokenTransaction)
    (token : TokenPubkey) (maxSupply : U128) :
    Decidable (CheckSeparates prims stored tx token maxSupply) :=
  decidable_of_iff (_ ∧ _) ⟨fun both => ⟨both.1, both.2⟩, fun both => ⟨both.within, both.beyond⟩⟩

section Results

variable {prims : Primitives} {tx : TokenTransaction} {token : TokenPubkey}
  {stored : List TokenTransaction}

theorem mintedAmount_of_sameContent {a b : TokenTransaction} (same : a.SameContent b) :
    mintedAmount token a = mintedAmount token b := by
  have hashed : ∀ tx : TokenTransaction, mintedAmount token tx =
      if tx.issuance.isSome then
        exactSum (((tx.leavesToCreate.map TokenLeafOutput.hashed).filter fun leaf =>
          leaf.tokenPubkey = token).map HashedLeaf.amount)
      else 0 := by
    intro tx
    unfold mintedAmount
    rw [tx.isMint_eq, List.filter_map, List.map_map]
    rfl
  rw [hashed a, hashed b, same.issuance, same.leaves]

/-- The stored mints amount to those other than `tx`, and to `tx` when it is stored. -/
theorem sum_stored (hashes : (stored.map (·.hash prims)).Nodup)
    (unique : ∀ other ∈ stored, other.hash prims = tx.hash prims → other.SameContent tx) :
    (stored.map (mintedAmount token)).sum = otherMints prims stored tx token +
      if IsStored prims stored tx then mintedAmount token tx else 0 := by
  induction stored with
  | nil => simp [otherMints, IsStored]
  | cons other rest ih =>
    rw [List.map_cons, List.nodup_cons] at hashes
    have inRest := ih hashes.2 fun other mem => unique other (by simp [mem])
    have anywhere : IsStored prims (other :: rest) tx ↔
        other.hash prims = tx.hash prims ∨ IsStored prims rest tx := by
      simp [IsStored]
    rw [List.map_cons, List.sum_cons, inRest]
    by_cases same : other.hash prims = tx.hash prims
    · have notInRest : ¬ IsStored prims rest tx := by
        rintro ⟨another, mem, also⟩
        exact hashes.1 (List.mem_map.mpr ⟨another, mem, also.trans same.symm⟩)
      have amount : mintedAmount token other = mintedAmount token tx :=
        mintedAmount_of_sameContent (unique other (by simp) same)
      rw [if_neg notInRest, if_pos (anywhere.mpr (.inl same)), amount]
      simp [otherMints, same, Nat.add_comm]
    · simp [otherMints, anywhere, same, Nat.add_assoc]

theorem canStore_of_inserted {tables tables' : SparkTables}
    (recorded : Recorded prims tables.fixedRow stored)
    (inserted : SparkTables.Inserted prims tables tx tables') :
    ¬ IsStored prims stored tx ∧ CanStore stored tx := by
  refine ⟨?_, inserted.idsDistinct, ?_, inserted.operatorsDistinct, ?_⟩
  · rintro ⟨other, mem, same⟩
    exact recorded.fresh inserted other mem same
  · intro other mem leaf leafMem taken
    obtain ⟨index, there⟩ := List.mem_iff_getElem?.mp leafMem
    obtain ⟨row, present, settled⟩ := recorded.output_of_leaf mem there
    obtain ⟨own, ownMem, same⟩ := List.mem_map.mp taken
    have sameId : row.sparkId = leaf.id := congrArg SparkOutputRow.sparkId settled
    exact getSparkOutputModel_eq_none (inserted.idsFresh own ownMem) present
      (sameId.trans same.symm)
  · obtain ⟨row, known, -⟩ := inserted.linked
    simp [known]

theorem lookup_eq_none {tables : SparkTables} (recorded : Recorded prims tables.fixedRow stored)
    (absent : ¬ IsStored prims stored tx) : tables.transactions.lookup (tx.hash prims) = none := by
  by_contra present
  obtain ⟨other, mem, same⟩ := recorded.known (tx.hash prims) (by simpa [fixedRow] using present)
  exact absent ⟨other, mem, same⟩

theorem insertSparkTransaction_of_canStore {tables : SparkTables}
    (recorded : Recorded prims tables.fixedRow stored) {issuer : PublicKey}
    {signature : Option OperatorSpecificOwnerSignature} {timestamp : UInt64}
    (mint : tx.input = .mint issuer signature timestamp)
    (absent : ¬ IsStored prims stored tx) (canStore : CanStore stored tx) :
    ∃ tables', tables.insertSparkTransaction prims tx = .ok tables' := by
  have fresh := lookup_eq_none recorded absent
  have unused : ∀ id ∈ tx.leavesToCreate.map TokenLeafOutput.id,
      tables.getSparkOutputModel id = none := by
    intro id taken
    by_contra present
    obtain ⟨⟨place, row⟩, found⟩ := Option.ne_none_iff_exists'.mp present
    obtain ⟨there, sameId⟩ := getSparkOutputModel_eq_some found
    obtain ⟨other, mem, -, leaf, leafThere, settled⟩ := recorded.leaf_of_output there
    have leafId : row.sparkId = leaf.id := congrArg SparkOutputRow.sparkId settled
    rw [← sameId, leafId] at taken
    exact canStore.2.1 other mem leaf (List.mem_of_getElem? leafThere) taken
  have spends : tx.outputsToSpend = [] := by
    unfold TokenTransaction.outputsToSpend
    rw [mint]
  have noneTaken : (tx.leavesToCreate.map TokenLeafOutput.id).any (fun id =>
      (tables.getSparkOutputModel id).isSome) = false := by
    rw [List.any_eq_false]
    intro id taken
    simp [unused id taken]
  obtain ⟨row, known⟩ := Option.isSome_iff_exists.mp canStore.2.2.2
  unfold insertSparkTransaction
  simp only [fresh, canStore.1, noneTaken, canStore.2.2.1, known, spends, insertSpentOutputs]
  exact ⟨_, if_neg (by simp)⟩

end Results

section Session

variable {prims : Primitives} {l1 : L1Tables} {tx : TokenTransaction} {issuer : PublicKey}
  {signature : Option OperatorSpecificOwnerSignature} {timestamp : UInt64}
  {announcement : TokenPubkeyAnnouncement} {stored now : List TokenTransaction}
  {tables : SparkTables}

/-- What is stored while the mint is submitted: what was stored before, and perhaps the
mint. -/
def StoredNow (prims : Primitives) (stored : List TokenTransaction) (tx : TokenTransaction)
    (now : List TokenTransaction) : Prop :=
  now = stored ∨ now = stored ++ [tx] ∧ ¬ IsStored prims stored tx ∧ CanStore stored tx

variable (hashes : (stored.map (·.hash prims)).Nodup)
  (unique : ∀ other ∈ stored, other.hash prims = tx.hash prims → other.SameContent tx)

include hashes unique in
/-- The supply at the end counts the mint once. -/
theorem sum_storedNow (storedNow : StoredNow prims stored tx now) :
    (now.map (mintedAmount issuer)).sum = otherMints prims stored tx issuer +
      if IsStored prims stored tx ∨ now ≠ stored then mintedAmount issuer tx else 0 := by
  rcases storedNow with rfl | ⟨rfl, absent, -⟩
  · simpa using sum_stored hashes unique
  · have before : (stored.map (mintedAmount issuer)).sum = _ := sum_stored hashes unique
    rw [if_neg absent] at before
    rw [List.map_append, List.sum_append, before]
    simp

include hashes unique in
/-- Where the check separates, its verdict is the right one as long as a mint beyond the
limit is not stored. -/
theorem rejects_iff {maxSupply : U128} (separates : CheckSeparates prims stored tx issuer maxSupply)
    (storedNow : StoredNow prims stored tx now)
    (beyond : maxSupply.val < supplyWith prims stored tx issuer → now = stored) :
    Rejects maxSupply (createdAmount tx) ((now.map (mintedAmount issuer)).sum) ↔
      maxSupply.val < supplyWith prims stored tx issuer := by
  have supply : supplyWith prims stored tx issuer =
    otherMints prims stored tx issuer + mintedAmount issuer tx := rfl
  have sum : (now.map (mintedAmount issuer)).sum = _ := sum_storedNow hashes unique storedNow
  unfold Rejects
  rw [sum]
  by_cases within : supplyWith prims stored tx issuer ≤ maxSupply.val
  · have room := separates.within within
    have counted : IsStored prims stored tx ∨ now ≠ stored →
        IsStored prims stored tx ∨ CanStore stored tx := by
      rintro (isStored | changed)
      · exact .inl isStored
      · rcases storedNow with same | ⟨-, -, canStore⟩
        · exact absurd same changed
        · exact .inr canStore
    have fits := maxSupply.isLt
    rw [Nat.mod_eq_of_lt (by split <;> omega)]
    constructor
    · intro rejects
      split at rejects
      case isTrue once =>
        rw [if_pos (counted once)] at room
        omega
      case isFalse =>
        omega
    · intro exceeds
      omega
  · obtain rfl := beyond (by omega)
    simp only [ne_eq, not_true_eq_false, or_false]
    constructor
    · intro _
      omega
    · exact separates.beyond

/-- The controller handles a message with the mint: it stores the mint or does nothing. -/
theorem storedNow_store (recorded : Recorded prims tables.fixedRow now)
    (storedNow : StoredNow prims stored tx now) :
    ∃ now', Recorded prims (handleNewSparkTxs prims [tx] tables).1.fixedRow now' ∧
      StoredNow prims stored tx now' := by
  rcases handleNewSparkTxs_single prims tx tables with ⟨same, -⟩ | ⟨inserted, -⟩
  · rw [same]
    exact ⟨now, recorded, storedNow⟩
  · obtain ⟨absent, canStore⟩ := canStore_of_inserted recorded inserted
    rcases storedNow with rfl | ⟨rfl, -, -⟩
    · exact ⟨now ++ [tx], recorded.insert inserted, .inr ⟨rfl, absent, canStore⟩⟩
    · exact absurd ⟨tx, by simp, rfl⟩ absent

/-- What holds while the mint is submitted, where the check separates. A mint beyond the
limit never reaches the controller. -/
structure Submitting (prims : Primitives) (stored : List TokenTransaction)
    (tx : TokenTransaction) (maxSupply supply : Nat) (state : Submissions) : Prop where
  tables : ∃ now, Recorded prims state.tables.fixedRow now ∧ StoredNow prims stored tx now ∧
    (maxSupply < supply → now = stored)
  inbox : ∀ other ∈ state.inbox, other = tx
  held : maxSupply < supply → state.inbox = []
  right : RejectionsRight maxSupply supply state.rejected

section

variable (mint : tx.input = .mint issuer signature timestamp)
  (announced : (l1.getTokenPubkeyInfo issuer).bind TokenPubkeyInfo.announcement =
    some announcement) (limited : 0 < announcement.maxSupply)
include mint announced limited

theorem step_call {state : Submissions}
    (recorded : Recorded prims state.tables.fixedRow now) {sigs : List SparkSignatureData}
    (own : sigs.any (fun data => data.tokenTxHash ≠ tx.hash prims) = false) :
    let rejects := Rejects announcement.maxSupply (createdAmount tx)
      ((now.map (mintedAmount issuer)).sum)
    step prims l1 tx state (.call sigs) = { state with
      rejected := state.rejected ++ [decide rejects]
      inbox := if rejects ∨ (state.tables.getSparkTxWithOutputs (tx.hash prims)).isSome then
        state.inbox else state.inbox ++ [tx] } := by
  intro rejects
  have check := checkSupply_eq mint announced limited recorded
  by_cases rejected : rejects
  · rw [if_pos rejected] at check
    simp only [step, own, check, rejected, Bool.false_eq_true, if_false, decide_true, true_or,
      if_true]
  · rw [if_neg rejected] at check
    simp only [step, own, check, rejected, Bool.false_eq_true, if_false, decide_false, false_or]

include hashes unique in
theorem submitting_step (separates : CheckSeparates prims stored tx issuer announcement.maxSupply)
    (state : Submissions) (event : Event)
    (submitting : Submitting prims stored tx announcement.maxSupply.val
      (supplyWith prims stored tx issuer) state) :
    Submitting prims stored tx announcement.maxSupply.val (supplyWith prims stored tx issuer)
      (step prims l1 tx state event) := by
  obtain ⟨⟨now, recorded, storedNow, beyond⟩, inbox, held, right⟩ := submitting
  cases event with
  | call sigs =>
    by_cases own : sigs.any (fun data => data.tokenTxHash ≠ tx.hash prims) = false
    · have verdict := rejects_iff hashes unique separates storedNow beyond
      rw [step_call mint announced limited recorded own]
      refine ⟨⟨now, recorded, storedNow, beyond⟩, ?_, ?_, ?_⟩
      · intro other mem
        simp only at mem
        split at mem
        · exact inbox other mem
        · rcases List.mem_append.mp mem with old | new
          · exact inbox other old
          · exact List.mem_singleton.mp new
      · intro exceeds
        exact (if_pos (.inl (verdict.mpr exceeds))).trans (held exceeds)
      · intro given mem
        rcases List.mem_append.mp mem with old | new
        · exact right given old
        · exact (List.mem_singleton.mp new).trans (decide_eq_decide.mpr verdict)
    · have same : step prims l1 tx state (.call sigs) = state := by
        unfold step
        simp only [Bool.not_eq_false] at own
        exact if_pos own
      rw [same]
      exact ⟨⟨now, recorded, storedNow, beyond⟩, inbox, held, right⟩
  | store =>
    unfold step
    cases messages : state.inbox with
    | nil => exact ⟨⟨now, recorded, storedNow, beyond⟩, by simpa using inbox, held, right⟩
    | cons next rest =>
      obtain rfl := inbox next (by simp [messages])
      obtain ⟨now', recorded', storedNow'⟩ := storedNow_store recorded storedNow
      have within : ¬ announcement.maxSupply.val < supplyWith prims stored next issuer := by
        intro exceeds
        rw [held exceeds] at messages
        cases messages
      refine ⟨⟨now', recorded', storedNow', fun exceeds => absurd exceeds within⟩, ?_,
        fun exceeds => absurd exceeds within, right⟩
      intro other mem
      exact inbox other (by simp [messages, mem])
  | sign sigs =>
    refine ⟨⟨now, ?_, storedNow, beyond⟩, inbox, held, right⟩
    unfold step
    rw [(fixedRow_kept _).checkSparkSignatures _ sigs rfl]
    exact recorded

/-- Signature data of an operator for the mint. -/
def signatureFor (prims : Primitives) (tx : TokenTransaction) (operator : PublicKey) :
    List SparkSignatureData :=
  [⟨none, operator, .ecdsa (List.Vector.replicate 64 0), tx.hash prims, []⟩]

/-- The second of two calls with the mint stored between them counts the mint twice. -/
theorem passes_when_stored
    (recorded : Recorded prims tables.fixedRow stored) (absent : ¬ IsStored prims stored tx)
    (canStore : CanStore stored tx)
    (passes : ¬ Rejects announcement.maxSupply (createdAmount tx)
      ((stored.map (mintedAmount issuer)).sum))
    (right : ∀ events, true ∉ (runFrom (step prims l1 tx) ⟨tables, [], []⟩ events).rejected) :
    ¬ Rejects announcement.maxSupply (createdAmount tx)
      (((stored ++ [tx]).map (mintedAmount issuer)).sum) := by
  intro rejects
  have own : (signatureFor prims tx issuer).any (fun data =>
      data.tokenTxHash ≠ tx.hash prims) = false := by
    simp [signatureFor]
  have missing := lookup_eq_none recorded absent
  obtain ⟨tables', ok⟩ := insertSparkTransaction_of_canStore recorded mint absent canStore
  have first : step prims l1 tx ⟨tables, [], []⟩ (.call (signatureFor prims tx issuer)) =
      ⟨tables, [tx], [false]⟩ := by
    rw [@step_call prims l1 tx issuer signature timestamp announcement stored mint announced
      limited ⟨tables, [], []⟩ recorded _ own]
    simp [getSparkTxWithOutputs, missing, passes]
  have second : step prims l1 tx ⟨tables, [tx], [false]⟩ .store = ⟨tables', [], [false]⟩ := by
    simp [step, handleNewSparkTxs, missing, ok]
  have third := @step_call prims l1 tx issuer signature timestamp announcement (stored ++ [tx])
    mint announced limited ⟨tables', [], [false]⟩
    (recorded.insert (inserted_of_ok ok)) _ own
  apply right [.call (signatureFor prims tx issuer), .store, .call (signatureFor prims tx issuer)]
  rw [runFrom_cons, first, runFrom_cons, second, runFrom_cons, third, decide_eq_true rejects]
  simp

include unique in
/-- Two calls with the mint stored between them tell whether the check separates. -/
theorem checkSeparates_of_rejectionsRight (recorded : Recorded prims tables.fixedRow stored)
    (right : ∀ events, RejectionsRight announcement.maxSupply.val
      (supplyWith prims stored tx issuer)
      (runFrom (step prims l1 tx) ⟨tables, [], []⟩ events).rejected) :
    CheckSeparates prims stored tx issuer announcement.maxSupply := by
  have own : (signatureFor prims tx issuer).any (fun data =>
      data.tokenTxHash ≠ tx.hash prims) = false := by
    simp [signatureFor]
  have supply : supplyWith prims stored tx issuer =
    otherMints prims stored tx issuer + mintedAmount issuer tx := rfl
  have before : (stored.map (mintedAmount issuer)).sum = _ := sum_stored recorded.hashes unique
  have firstCall := @step_call prims l1 tx issuer signature timestamp announcement stored mint
    announced limited ⟨tables, [], []⟩ recorded _ own
  have first : Rejects announcement.maxSupply (createdAmount tx)
      ((stored.map (mintedAmount issuer)).sum) ↔
        announcement.maxSupply.val < supplyWith prims stored tx issuer := by
    have verdict := right [.call (signatureFor prims tx issuer)]
    rw [runFrom_cons, firstCall] at verdict
    simpa [RejectionsRight] using verdict
  constructor
  · intro within
    have passes : ¬ Rejects announcement.maxSupply (createdAmount tx)
        ((stored.map (mintedAmount issuer)).sum) := fun rejects => by
      have exceeds := first.mp rejects
      omega
    have never : ∀ events,
        true ∉ (runFrom (step prims l1 tx) ⟨tables, [], []⟩ events).rejected := by
      intro events mem
      have exceeds := right events true mem
      simp at exceeds
      omega
    have fits := announcement.maxSupply.isLt
    by_cases isStored : IsStored prims stored tx
    · rw [if_pos isStored] at before
      rw [before, Rejects, Nat.mod_eq_of_lt (by omega)] at passes
      rw [if_pos (.inl isStored)]
      omega
    · rw [if_neg isStored] at before
      by_cases canStore : CanStore stored tx
      · have again := passes_when_stored mint announced limited recorded isStored canStore passes
          never
        rw [List.map_append, List.sum_append, before, Rejects] at again
        simp only [List.map_cons, List.map_nil, List.sum_cons, List.sum_nil, Nat.add_zero] at again
        rw [Nat.mod_eq_of_lt (by omega)] at again
        rw [if_pos (.inr canStore)]
        omega
      · rw [before, Rejects, Nat.mod_eq_of_lt (by omega)] at passes
        rw [if_neg (not_or.mpr ⟨isStored, canStore⟩)]
        omega
  · intro exceeds
    rw [← before]
    exact first.mpr exceeds

end

end Session

/-- At a node that enforces announcements, without which the supply is not compared: of calls for
one mint of a limited token, in any number and order and with the controller and the checker at
work between them, every one is rejected for the supply when the stored mints with this one exceed
the limit and none otherwise, exactly where the check separates. -/
theorem rejectionsRight_iff_checkSeparates (prims : Primitives) (validateAnnouncement : Bool)
    (history : List SparkNode.Input) (l1 : L1Tables) (tx : TokenTransaction)
    (issuer : PublicKey) (signature : Option OperatorSpecificOwnerSignature)
    (timestamp : UInt64) (announcement : TokenPubkeyAnnouncement) (hashed : Set Bytes)
    (collisionFree : Set.InjOn prims.sha256 hashed)
    (txWithin : SparkHash.Within prims hashed tx)
    (storedWithin : ∀ other ∈ (runFrom (SparkNode.step prims validateAnnouncement) SparkNode.new
      history).stored, SparkHash.Within prims hashed other)
    (mint : tx.input = .mint issuer signature timestamp)
    (announced : (l1.getTokenPubkeyInfo issuer).bind TokenPubkeyInfo.announcement =
      some announcement)
    (limited : 0 < announcement.maxSupply) :
    let node := runFrom (SparkNode.step prims validateAnnouncement) SparkNode.new history
    (∀ events, RejectionsRight announcement.maxSupply.val (supplyWith prims node.stored tx issuer)
      (runFrom (step prims l1 tx) ⟨node.tables, [], []⟩ events).rejected) ↔
    CheckSeparates prims node.stored tx issuer announcement.maxSupply := by
  intro node
  have recorded : Recorded prims node.tables.fixedRow node.stored := recorded_run history
  have unique : ∀ other ∈ node.stored, other.hash prims = tx.hash prims →
      other.SameContent tx := fun other mem same =>
    SparkHash.sameContent_of_hash collisionFree (storedWithin other mem) txWithin same
  constructor
  · exact checkSeparates_of_rejectionsRight unique mint announced limited recorded
  · intro separates events
    have start : Submitting prims node.stored tx announcement.maxSupply.val
        (supplyWith prims node.stored tx issuer)
        ⟨node.tables, [], []⟩ :=
      ⟨⟨node.stored, recorded, .inl rfl, fun _ => rfl⟩, by simp, fun _ => rfl, by
        intro verdict mem
        cases mem⟩
    exact (runFrom_invariant (submitting_step recorded.hashes unique mint announced limited
      separates) start events).right

/-- A limit whose bytes read the same in both orders. -/
def limit : U128 := ⟨2 ^ 120 + 1, by decide⟩

/-- The tables after the announcement of the token with key `repeating 1` was attached. -/
def announcedWith (maxSupply : U128) : L1Tables :=
  let tx : Lrc20Transaction :=
    ⟨⟨1, [], []⟩, .announcement (.tokenPubkey ⟨.repeating 1, "token", "TKN", 8, maxSupply, true⟩)⟩
  match L1Tables.empty.insertLrc20Transaction 0 tx with
  | .ok tables => tables.setLrc20TxStatus 1 .attached
  | .error _ => L1Tables.empty

def oneMintStored : SparkNode :=
  runFrom (SparkNode.step .plain true) SparkNode.new [.newSparkTxs [plainMint "a" 5]]

theorem stored_oneMintStored : oneMintStored.stored = [plainMint "a" 5] := by decide +kernel

/-- With 5 stored, a mint of 7 under a limit far above is never rejected. -/
theorem rejectionsRight_with_room :
    supplyWith .plain oneMintStored.stored (plainMint "b" 7) (.repeating 1) = 12 ∧
    ∀ events, RejectionsRight limit.val
      (supplyWith .plain oneMintStored.stored (plainMint "b" 7) (.repeating 1))
      (runFrom (step .plain (announcedWith limit) (plainMint "b" 7))
        ⟨oneMintStored.tables, [], []⟩ events).rejected := by
  have distinct : ∀ a ∈ hashedFor [plainMint "a" 5, plainMint "b" 7],
      ∀ b ∈ hashedFor [plainMint "a" 5, plainMint "b" 7],
      Primitives.plain.sha256 a = Primitives.plain.sha256 b → a = b := by
    decide +kernel
  have storedWithin : ∀ other ∈ oneMintStored.stored, SparkHash.Within .plain
      {part | part ∈ hashedFor [plainMint "a" 5, plainMint "b" 7]} other := by
    rw [stored_oneMintStored]
    intro other mem
    exact within_hashedFor (by simp [List.mem_singleton.mp mem])
  have separates : CheckSeparates .plain oneMintStored.stored (plainMint "b" 7) (.repeating 1)
      limit := by
    rw [stored_oneMintStored]
    decide +kernel
  constructor
  · rw [stored_oneMintStored]
    decide +kernel
  · exact (rejectionsRight_iff_checkSeparates .plain true [.newSparkTxs [plainMint "a" 5]]
      (announcedWith limit) (plainMint "b" 7) (.repeating 1) _ _
      ⟨.repeating 1, "token", "TKN", 8, limit, true⟩ _ (fun a aMem b bMem => distinct a aMem b bMem)
      (within_hashedFor (by simp)) storedWithin rfl (by decide +kernel)
      (by decide +kernel)).mpr separates

/-- One mint of little more than half the limit: the call of the second operator finds it
stored and counts it twice. -/
theorem second_call_rejected :
    let tx := plainMint "a" ⟨2 ^ 119 + 1, by decide⟩
    supplyWith .plain SparkNode.new.stored tx (.repeating 1) ≤ limit.val ∧
    (runFrom (step .plain (announcedWith limit) tx) ⟨SparkNode.new.tables, [], []⟩
      [.call (signatureFor .plain tx (.repeating 4)), .store,
        .call (signatureFor .plain tx (.repeating 5))]).rejected = [false, true] := by
  decide +kernel

end Submissions

end Lrc20.Rpc

import Mathlib.Data.Finmap
import Lrc20.Storage.Spark

/-! What `TxChecker` does with Spark transactions, signatures and exits. -/

open Lrc20.Storage

namespace Lrc20.TxCheck

/-- A transaction that waits for a token transaction. -/
inductive SparkChild where
  | tokenTx (tx : TokenTransaction)
  | exitTx (tx : Lrc20Transaction)
deriving DecidableEq

/-- The waiting transactions by the parent they wait for, without the time of their arrival. -/
abbrev SparkQueue := AList fun _ : SparkHash => SparkChild

/-! ### Conservation -/

/-- `sum_amount_by_token_pubkey`: the sums by token, `none` when one overflows. -/
def sumAmountByTokenPubkey : List TokenLeafOutput → Finmap (fun _ : TokenPubkey => U128) →
      Option (Finmap fun _ : TokenPubkey => U128)
  | [], sums => some sums
  | leaf :: rest, sums =>
    let sum := (sums.lookup leaf.tokenPubkey).getD 0
    if fits : sum.val + leaf.amount.val < 2 ^ 128 then
      sumAmountByTokenPubkey rest (sums.insert leaf.tokenPubkey ⟨_, fits⟩)
    else none

/-- Two overflowing sums count as equal. -/
def checkSparkConservationRules (leavesToSpend leavesToCreate : List TokenLeafOutput) : Bool :=
  sumAmountByTokenPubkey leavesToSpend ∅ = sumAmountByTokenPubkey leavesToCreate ∅

/-! ### Transactions -/

/-- The variables `check_spark_txs` carries from one transaction of the batch to the next. -/
structure SparkChecking where
  checkedTxs : AList fun _ : SparkHash => TokenTransaction
  spentLeaves : List SparkOutPoint
  newLeaves : List String
  notFoundParents : List (SocketAddr × SparkHash)
  sparkQueue : SparkQueue

section Transactions

variable (prims : Primitives) (tables : SparkTables)

/-- The first loop of `check_spark_transfer`: the leaves the transfer spends, `none` when
it is invalid. A parent is looked for in the storage, then in the batch. -/
def inputLeaves (tx : TokenTransaction) (sender : Option SocketAddr) :
    List TokenLeafToSpend → SparkChecking → SparkChecking × Option (List TokenLeafOutput)
  | [], state => (state, some [])
  | leaf :: rest, state =>
    if leaf.outPoint ∈ state.spentLeaves then (state, none)
    else match (tables.getSparkTxWithOutputs leaf.parentOutputHash).or
        (state.checkedTxs.lookup leaf.parentOutputHash) with
      | none =>
        ({ state with
            notFoundParents := state.notFoundParents ++ sender.toList.map (·, leaf.parentOutputHash)
            sparkQueue := state.sparkQueue.insert leaf.parentOutputHash (.tokenTx tx) },
          none)
      | some parent =>
        if tx.sparkOperatorIdentityPublicKeys ≠ parent.sparkOperatorIdentityPublicKeys then
          (state, none)
        else match parent.leavesToCreate[leaf.parentOutputVout.toNat]? with
          | none => (state, none)
          | some input =>
            if input.isFrozen.getD false then (state, none)
            else
              let others := inputLeaves tx sender rest
                { state with spentLeaves := leaf.outPoint :: state.spentLeaves }
              (others.1, others.2.map (input :: ·))

/-- The loop over the leaves to create: ids are new in the batch and not taken by another
transaction, and each leaf passes the checks of its kind of transaction. -/
def createLeaves (hash : SparkHash) (valid : TokenLeafOutput → Bool) :
    List TokenLeafOutput → List String → List String × Bool
  | [], newLeaves => (newLeaves, true)
  | leaf :: rest, newLeaves =>
    let taken : Bool := match tables.getSparkOutputModel leaf.id with
      | none => false
      | some (place, _) => place.tokenTransactionHash != hash
    if leaf.id ∈ newLeaves ∨ taken ∨ ¬ valid leaf then (newLeaves, false)
    else createLeaves hash valid rest (leaf.id :: newLeaves)

def checkSparkTransfer (tx : TokenTransaction) (sender : Option SocketAddr)
    (outputsToSpend : List TokenLeafToSpend) (state : SparkChecking) : SparkChecking × Bool :=
  let spent := inputLeaves tables tx sender outputsToSpend state
  match spent.2 with
  | none => (spent.1, false)
  | some leaves =>
    let created := createLeaves tables (tx.hash prims) (fun _ => true) tx.leavesToCreate
      spent.1.newLeaves
    ({ spent.1 with newLeaves := created.1 },
      created.2 && checkSparkConservationRules leaves tx.leavesToCreate)

variable (l1 : L1Tables) (validateAnnouncement : Bool)

/-- What `check_spark_issue` asks of one leaf beyond its id. -/
def isLeafOfIssuer (issuer : PublicKey) (leaf : TokenLeafOutput) : Bool :=
  leaf.tokenPubkey == issuer && (!validateAnnouncement ||
    match l1.getTokenPubkeyInfo leaf.tokenPubkey with
    | none => false
    | some info => info.announcement.isSome)

def checkSparkIssue (tx : TokenTransaction) (issuer : PublicKey)
    (issuerSignature : Option OperatorSpecificOwnerSignature) (state : SparkChecking) :
    SparkChecking × Bool :=
  match issuerSignature with
  | none => (state, false)
  | some signature =>
    if signature.ownerSignature.verify prims issuer (tx.hash prims)
        signature.operatorIdentityPublicKey then
      let created := createLeaves tables (tx.hash prims)
        (isLeafOfIssuer l1 validateAnnouncement issuer) tx.leavesToCreate state.newLeaves
      ({ state with newLeaves := created.1 }, created.2)
    else (state, false)

def checkSparkTransaction (tx : TokenTransaction) (sender : Option SocketAddr)
    (state : SparkChecking) : SparkChecking × Bool :=
  match tx.input with
  | .mint issuer signature _ =>
    checkSparkIssue prims tables l1 validateAnnouncement tx issuer signature state
  | .transfer outputsToSpend => checkSparkTransfer prims tables tx sender outputsToSpend state

/-- One turn of the loop of `check_spark_txs`. -/
def checkNextSparkTx (sender : Option SocketAddr) (state : SparkChecking) (tx : TokenTransaction) :
    SparkChecking :=
  let checked := checkSparkTransaction prims tables l1 validateAnnouncement tx sender state
  if checked.2 then
    { checked.1 with checkedTxs := checked.1.checkedTxs.insert (tx.hash prims) tx }
  else checked.1

/-- The transactions that waited for one of the given parents leave the queue. -/
def handleChildSparkTransactions (queue : SparkQueue) :
    List SparkHash → SparkQueue × List SparkChild
  | [] => (queue, [])
  | parent :: rest =>
    match queue.lookup parent with
    | none => handleChildSparkTransactions queue rest
    | some child =>
      let others := handleChildSparkTransactions (queue.erase parent) rest
      (others.1, child :: others.2)

/-- What `check_spark_txs` leaves behind: the queue, the transactions it reports, the
waiting ones it sends to another check and the parents it asks peers for. -/
structure SparkCheckOutcome where
  sparkQueue : SparkQueue
  checkedTxs : List TokenTransaction
  children : List SparkChild
  notFoundParents : List (SocketAddr × SparkHash)

def checkSparkTxs (queue : SparkQueue) (txs : List TokenTransaction) (sender : Option SocketAddr) :
    SparkCheckOutcome :=
  let state := txs.foldl (checkNextSparkTx prims tables l1 validateAnnouncement sender)
    ⟨∅, [], [], [], queue⟩
  let children := handleChildSparkTransactions state.sparkQueue state.checkedTxs.keys
  ⟨children.1, state.checkedTxs.entries.map Sigma.snd, children.2, state.notFoundParents⟩

end Transactions

/-! ### Signatures -/

section Signatures

variable (prims : Primitives) (tables : SparkTables)

/-- `get_spark_prevout`: the leaf an input spends. Its transaction is named by the hash of
what the storage holds. -/
def getSparkPrevout (leavesToSpend : List TokenLeafToSpend) (index : Nat) :
    Option (SparkOutPoint × TokenLeafOutput) :=
  match leavesToSpend[index]? with
  | none => none
  | some prev =>
    match tables.getSparkTxWithOutputs prev.parentOutputHash with
    | none => none
    | some tx => (tx.leavesToCreate[prev.parentOutputVout.toNat]?).map
        (⟨tx.hash prims, prev.parentOutputVout.toNat⟩, ·)

/-- The loop of `check_spark_signature_data` over the revocation secrets: each valid one is
stored at once. -/
def checkRevocationSecrets (outputsToSpend : List TokenLeafToSpend) :
    List SparkSignatureLeafData → SparkTables → SparkTables × Bool
  | [], tables => (tables, true)
  | data :: rest, tables =>
    match data.revocationSecret with
    | none => checkRevocationSecrets outputsToSpend rest tables
    | some secret =>
      match getSparkPrevout prims tables outputsToSpend data.tokenTxLeafIndex.toNat with
      | none => (tables, false)
      | some (place, output) =>
        if prims.publicKeyOf secret = output.revocationPublicKey then
          checkRevocationSecrets outputsToSpend rest (tables.setRevocationSecretKey place secret)
        else (tables, false)

/-- The owner signature, when there is one, is that of the owner of the input it names. -/
def checkOwnerSignature (outputsToSpend : List TokenLeafToSpend) (message : Bytes32)
    (data : SparkSignatureData) : Bool :=
  match data.operatorSpecificOwnerSignature with
  | none => true
  | some owner =>
    match getSparkPrevout prims tables outputsToSpend (owner.inputIndex.getD 0).toNat with
    | none => false
    | some (_, output) => owner.ownerSignature.verify prims output.ownerPublicKey message
        owner.operatorIdentityPublicKey

def checkSparkSignatureData (data : SparkSignatureData) : SparkTables × Bool :=
  match tables.getSparkTxWithOutputs data.tokenTxHash with
  | none => (tables, false)
  | some tx =>
    let message := tx.hash prims
    if data.operatorPubkey ∉ tx.sparkOperatorIdentityPublicKeys then (tables, false)
    else if ¬ data.operatorSignature.verify prims data.operatorPubkey message none then
      (tables, false)
    else match tx.input with
      | .mint _ _ _ => (tables, true)
      | .transfer outputsToSpend =>
        if checkOwnerSignature prims tables outputsToSpend message data then
          checkRevocationSecrets prims outputsToSpend data.outputsToSpendData tables
        else (tables, false)

def checkSparkTxFinalization (txLeafCount : Nat) (signatures : List SparkSignatureData)
    (leafData : List SparkSignatureLeafData) : TokenTransactionStatus :=
  let operators := (signatures.map SparkSignatureData.operatorPubkey).dedup.length
  if txLeafCount = 0 then
    if sparkThreshold ≤ operators then .finalized else .started
  else if operators < sparkThreshold then .started
  else
    let secrets := (leafData.filterMap SparkSignatureLeafData.revocationSecret).dedup.length
    if txLeafCount ≤ secrets then .finalized else .signed

/-- One turn of the first loop of `check_spark_signatures`. -/
def storeSignature (data : SparkSignatureData) : SparkTables :=
  let checked := checkSparkSignatureData prims tables data
  if checked.2 then checked.1.insertSignatureData data else checked.1

/-- One turn of the second loop: the status of the transaction the data names, written
under the hash of what the storage holds. -/
def updateStatus (state : SparkTables × List SparkHash) (data : SparkSignatureData) :
    SparkTables × List SparkHash :=
  match state.1.getSparkTxWithOutputs data.tokenTxHash with
  | none => state
  | some tx =>
    let status := checkSparkTxFinalization tx.outputsToSpend.length
      (state.1.getSparkSignatures data.tokenTxHash)
      (state.1.getRevocationSecretKeys data.tokenTxHash)
    (state.1.setTokenTransactionStatus (tx.hash prims) status,
      if status = .finalized then state.2 ++ [data.tokenTxHash] else state.2)

/-- `check_spark_signatures`: the tables, the queue and the children sent to another
check. -/
def checkSparkSignatures (queue : SparkQueue) (sigs : List SparkSignatureData) :
    SparkTables × SparkQueue × List SparkChild :=
  let stored := sigs.foldl (storeSignature prims) tables
  let updated := sigs.foldl (updateStatus prims) (stored, [])
  (updated.1, handleChildSparkTransactions queue updated.2)

end Signatures

/-! ### Exits -/

section Exits

variable (prims : Primitives)

/-- The hexadecimal digits of a hash, as `Display` writes it. -/
def hexString (hash : SparkHash) : String :=
  let digit (nibble : Nat) : Char := "0123456789abcdef".toList.getD nibble '0'
  String.ofList (hash.toList.flatMap fun byte => [digit (byte.toNat / 16), digit (byte.toNat % 16)])

/-- What the check of an exit finds; it waits for a parent that is not stored or finalized. -/
inductive ExitVerdict where
  | valid
  | invalid
  | waiting (parent : SparkHash)
deriving DecidableEq

/-- The checks of one output proof of an exit against the leaf it names, and the mark they
leave on it. -/
def checkExitProof (txid : Txid) (block : BlockHash) (tables : SparkTables)
    (index : Nat) (proof : ReceiptProof) : SparkTables × ExitVerdict :=
  match proof with
  | .emptyReceipt _ => (tables, .valid)
  | .sparkExit exit =>
    match exit.metadata.bind prims.parseExitMetadata with
    | none => (tables, .invalid)
    | some (hash, leafIndex) =>
      if (tables.getSparkOutputModel (hexString hash)).isSome then (tables, .invalid)
      else match tables.getSparkTxWithOutputs hash with
        | none => (tables, .waiting hash)
        | some tx =>
          if tables.getTokenTransactionStatus hash ≠ .finalized then (tables, .waiting hash)
          else match tx.leavesToCreate.find? fun leaf => leaf.id = toString leafIndex with
            | none => (tables, .invalid)
            | some leaf =>
              if leaf.isFrozen.getD false ∨ leaf.withdrawTxid.isSome ∨
                  leaf.receipt ≠ proof.receipt ∨
                  leaf.revocationPublicKey ≠ exit.script.revocationKey ∨
                  leaf.ownerPublicKey ≠ exit.script.delayKey then (tables, .invalid)
              else match tables.markSparkOutputAsWithdrawn leaf.id txid index block with
                | .error _ => (tables, .invalid)
                | .ok tables => (tables, .valid)
  | _ => (tables, .invalid)

/-- The loop of `check_spark_exit`. -/
def checkExitProofs (txid : Txid) (block : BlockHash) :
    List (Nat × ReceiptProof) → SparkTables → SparkTables × ExitVerdict
  | [], tables => (tables, .valid)
  | (index, proof) :: rest, tables =>
    let checked := checkExitProof prims txid block tables index proof
    match checked.2 with
    | .valid => checkExitProofs txid block rest checked.1
    | verdict => (checked.1, verdict)

/-- `check_spark_exit`. The transaction has to be in a block. -/
def checkSparkExit (client : BitcoinClient) (tables : SparkTables) (queue : SparkQueue)
    (tx : Lrc20Transaction) (outputProofs : ProofMap) :
    Except Unit (SparkTables × SparkQueue × ExitVerdict) := do
  match ← client.getRawTransactionInfo tx.txid with
  | none => return (tables, queue, .invalid)
  | some block =>
    client.getBlockHeaderInfo block
    let checked := checkExitProofs prims tx.txid block outputProofs.entries tables
    match checked.2 with
    | .waiting parent => return (checked.1, queue.insert parent (.exitTx tx), checked.2)
    | verdict => return (checked.1, queue, verdict)

/-- A call to the Bitcoin node fails, or the transaction is in no block, or its proofs
decide. -/
theorem checkSparkExit_cases (client : BitcoinClient) (tables : SparkTables) (queue : SparkQueue)
    (tx : Lrc20Transaction) (outputProofs : ProofMap) :
    let checked := fun block => checkExitProofs prims tx.txid block outputProofs.entries tables
    checkSparkExit prims client tables queue tx outputProofs = .error () ∨
      (∃ queue', checkSparkExit prims client tables queue tx outputProofs =
        .ok (tables, queue', .invalid)) ∨
      ∃ block queue', checkSparkExit prims client tables queue tx outputProofs =
        .ok ((checked block).1, queue', (checked block).2) := by
  intro checked
  unfold checkSparkExit
  cases client.getRawTransactionInfo tx.txid with
  | error failure => exact .inl rfl
  | ok block =>
    cases block with
    | none => exact .inr (.inl ⟨_, rfl⟩)
    | some block =>
      cases header : client.getBlockHeaderInfo block with
      | error failure =>
        left
        simp [bind, Except.bind, header]
      | ok found =>
        right; right
        refine ⟨block, ?_⟩
        simp only [bind, Except.bind, header]
        split
        case h_1 => exact ⟨_, rfl⟩
        case h_2 => exact ⟨_, rfl⟩

end Exits

/-! ### Rules for what the checks write -/

section Rules

variable {prims : Primitives} {P : SparkTables → Prop} {tables : SparkTables}
  {data : SparkSignatureData}

theorem checkRevocationSecrets_keeps {outputsToSpend : List TokenLeafToSpend}
    (keeps : ∀ tables index place output secret, P tables →
      getSparkPrevout prims tables outputsToSpend index = some (place, output) →
      prims.publicKeyOf secret = output.revocationPublicKey →
      P (tables.setRevocationSecretKey place secret)) (datas : List SparkSignatureLeafData)
    (start : P tables) :
    P (checkRevocationSecrets prims outputsToSpend datas tables).1 := by
  induction datas generalizing tables with
  | nil => exact start
  | cons data rest ih =>
    unfold checkRevocationSecrets
    cases data.revocationSecret with
    | none => exact ih start
    | some secret =>
      cases found : getSparkPrevout prims tables outputsToSpend data.tokenTxLeafIndex.toNat with
      | none => exact start
      | some prevout =>
        obtain ⟨place, output⟩ := prevout
        simp only
        split
        case isTrue matching =>
          exact ih (keeps tables _ place output secret start found matching)
        case isFalse => exact start

/-- What one kind of write keeps, the check of signature data keeps: it only ever writes
the revocation secrets of the leaves the transaction spends. -/
theorem checkSparkSignatureData_keeps
    (keeps : ∀ tables' tx outputsToSpend index place output secret, P tables' →
      tables.getSparkTxWithOutputs data.tokenTxHash = some tx →
      tx.input = .transfer outputsToSpend →
      getSparkPrevout prims tables' outputsToSpend index = some (place, output) →
      prims.publicKeyOf secret = output.revocationPublicKey →
      P (tables'.setRevocationSecretKey place secret)) (start : P tables) :
    P (checkSparkSignatureData prims tables data).1 := by
  unfold checkSparkSignatureData
  cases found : tables.getSparkTxWithOutputs data.tokenTxHash with
  | none => exact start
  | some tx =>
    simp only
    split
    case isTrue => exact start
    case isFalse =>
      split
      case isTrue => exact start
      case isFalse =>
        cases kind : tx.input with
        | mint issuer signature timestamp => exact start
        | transfer outputsToSpend =>
          simp only
          split
          case isFalse => exact start
          case isTrue =>
            apply checkRevocationSecrets_keeps _ _ start
            intro tables' index place output secret
            exact fun held => keeps tables' tx outputsToSpend index place output secret held
              found kind

theorem checkSparkTxFinalization_finalized {count : Nat} {signatures : List SparkSignatureData}
    {leafData : List SparkSignatureLeafData}
    (finalized : checkSparkTxFinalization count signatures leafData = .finalized) :
    sparkThreshold ≤ (signatures.map SparkSignatureData.operatorPubkey).dedup.length ∧
      count ≤ (leafData.filterMap SparkSignatureLeafData.revocationSecret).dedup.length := by
  unfold checkSparkTxFinalization at finalized
  simp only at finalized
  split at finalized
  case isTrue noInputs =>
    split at finalized
    case isTrue enough => exact ⟨enough, by omega⟩
    case isFalse => cases finalized
  case isFalse =>
    split at finalized
    case isTrue => cases finalized
    case isFalse enough =>
      split at finalized
      case isTrue covered => exact ⟨by omega, covered⟩
      case isFalse => cases finalized

theorem checkSparkSignatureData_accepts
    (accepted : (checkSparkSignatureData prims tables data).2 = true) :
    ∃ tx, tables.getSparkTxWithOutputs data.tokenTxHash = some tx ∧
      data.operatorPubkey ∈ tx.sparkOperatorIdentityPublicKeys ∧
      data.operatorSignature.verify prims data.operatorPubkey (tx.hash prims) none ∧
      ∀ outputsToSpend, tx.input = .transfer outputsToSpend →
        checkOwnerSignature prims tables outputsToSpend (tx.hash prims) data := by
  unfold checkSparkSignatureData at accepted
  cases found : tables.getSparkTxWithOutputs data.tokenTxHash with
  | none =>
    rw [found] at accepted
    cases accepted
  | some tx =>
    rw [found] at accepted
    simp only at accepted
    split at accepted
    case isTrue => cases accepted
    case isFalse listed =>
      split at accepted
      case isTrue => cases accepted
      case isFalse signed =>
        refine ⟨tx, rfl, not_not.mp listed, not_not.mp signed, ?_⟩
        intro outputsToSpend input
        rw [input] at accepted
        simp only at accepted
        split at accepted
        case isTrue owned => exact owned
        case isFalse => cases accepted

/-- What marking the leaf of a valid exit proof keeps, the check of an exit keeps. -/
theorem checkExitProofs_keeps {txid : Txid} {block : BlockHash}
    (keeps : ∀ tables place row vout, P tables → tables.output place = some row →
      P (tables.modifyOutput place fun row =>
        { row with
          withdrawTxid := some txid, withdrawVout := some (UInt32.ofNat vout)
          withdrawBlockhash := some block })) (proofs : List (Nat × ReceiptProof))
    (start : P tables) :
    P (checkExitProofs prims txid block proofs tables).1 := by
  induction proofs generalizing tables with
  | nil => exact start
  | cons entry rest ih =>
    obtain ⟨index, proof⟩ := entry
    have one : P (checkExitProof prims txid block tables index proof).1 := by
      unfold checkExitProof
      cases proof <;> try exact start
      simp only
      repeat' split
      all_goals try exact start
      rename_i marked
      unfold SparkTables.markSparkOutputAsWithdrawn at marked
      split at marked
      case h_1 => cases marked
      case h_2 place row found =>
        obtain rfl := Except.ok.inj marked
        exact keeps tables place row index start (SparkTables.getSparkOutputModel_eq_some found).1
    unfold checkExitProofs
    simp only
    split
    · exact ih one
    · exact one

/-- The writes that signatures and exits make keep the property. -/
structure KeptByWrites (P : SparkTables → Prop) : Prop where
  secret : ∀ tables place secret, P tables → P (tables.setRevocationSecretKey place secret)
  mark : ∀ tables place txid vout block, P tables → P (tables.modifyOutput place fun row =>
    { row with
      withdrawTxid := some txid, withdrawVout := some vout, withdrawBlockhash := some block })
  signature : ∀ tables data, P tables → P (tables.insertSignatureData data)
  status : ∀ tables hash status, P tables → P (tables.setTokenTransactionStatus hash status)

namespace KeptByWrites

theorem storeSignature (kept : KeptByWrites P) (data : SparkSignatureData) (start : P tables) :
    P (storeSignature prims tables data) := by
  have checked : P (checkSparkSignatureData prims tables data).1 :=
    checkSparkSignatureData_keeps (fun tables' _ _ _ place _ secret held _ _ _ _ =>
      kept.secret tables' place secret held) start
  unfold TxCheck.storeSignature
  simp only
  split
  · exact kept.signature _ data checked
  · exact checked

theorem updateStatus (kept : KeptByWrites P) (state : SparkTables × List SparkHash)
    (data : SparkSignatureData) (start : P state.1) : P (updateStatus prims state data).1 := by
  unfold TxCheck.updateStatus
  split
  · exact start
  · exact kept.status _ _ _ start

theorem checkSparkSignatures (kept : KeptByWrites P) (queue : SparkQueue)
    (sigs : List SparkSignatureData) (start : P tables) :
    P (checkSparkSignatures prims tables queue sigs).1 := by
  have signed := List.foldlRecOn (motive := P) sigs (TxCheck.storeSignature prims) start
    fun _ held data _ => kept.storeSignature data held
  exact List.foldlRecOn (motive := fun state : SparkTables × List SparkHash => P state.1) sigs _
    signed fun state held data _ => kept.updateStatus state data held

theorem checkExitProofs (kept : KeptByWrites P) (txid : Txid) (block : BlockHash)
    (proofs : List (Nat × ReceiptProof)) (start : P tables) :
    P (checkExitProofs prims txid block proofs tables).1 :=
  checkExitProofs_keeps (fun tables place _ _ held _ => kept.mark tables place _ _ _ held) proofs
    start

/-- What is read from a part of the tables that the writes keep. -/
theorem of_view {α : Type} {view : SparkTables → α}
    (kept : ∀ seen, KeptByWrites fun tables => view tables = seen)
    (congr : ∀ tables tables', view tables' = view tables → P tables → P tables') :
    KeptByWrites P where
  secret tables place secret := congr _ _ ((kept _).secret tables place secret rfl)
  mark tables place txid vout block := congr _ _ ((kept _).mark tables place txid vout block rfl)
  signature tables data := congr _ _ ((kept _).signature tables data rfl)
  status tables hash status := congr _ _ ((kept _).status tables hash status rfl)

end KeptByWrites

end Rules

end Lrc20.TxCheck

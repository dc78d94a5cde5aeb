import Lrc20.Lib.Indices
import Lrc20.Receipts.Binding
import Lrc20.TxCheck.Bulletproofs

/-! What the outputs of a transaction are that passes the checks by itself. -/

open FixedWidth Outcome

namespace Lrc20.TxCheck

theorem Lock.isOpReturn_script (prims : Primitives) (lock : Lock) :
    ScriptBuf.isOpReturn (lock.script prims) = false := by
  cases lock <;> rfl

section Proofs

-- The proofs are those of a build with or without bulletproofs.
variable {π : Type} {proofs : List (Nat × π)} {outputs : List TxOut}

/-- The proofs are those of the outputs other than `OP_RETURN`, one for each, every output passes
the check of its proof, and the amounts add up to what is announced. -/
structure OutputsProved (passes : π → TxOut → Prop) (amount : π → U128) (outputs : List TxOut)
    (proofs : List (Nat × π)) (announced : Option U128) : Prop where
  bijective : Set.BijOn Prod.fst {entry | entry ∈ proofs}
    {vout | ∃ output, outputs[vout]? = some output ∧ output.scriptPubkey.isOpReturn = false}
  passed : ∀ entry ∈ proofs, ∃ output, outputs[entry.1]? = some output ∧ passes entry.2 output
  amounts : ∀ total ∈ announced, exactSum (proofs.map fun entry => amount entry.2) = total.val

def NoneOfOpReturn (outputs : List TxOut) (proofs : List (Nat × π)) : Prop :=
  ∀ entry ∈ proofs, ∀ output ∈ outputs[entry.1]?, output.scriptPubkey.isOpReturn = false

instance (outputs : List TxOut) (proofs : List (Nat × π)) :
    Decidable (NoneOfOpReturn outputs proofs) :=
  inferInstanceAs (Decidable (∀ _ ∈ _, _))

/-- What the checks establish that are not about single proofs: they count the proofs, check each
that is not passed over as the proof of an `OP_RETURN` output, and compare the wrapping sum. -/
structure Accepted (passes : π → TxOut → Prop) (amount : π → U128) (outputs : List TxOut)
    (proofs : List (Nat × π)) (announced : Option U128) (passesOver : Prop) : Prop where
  sorted : (proofs.map Prod.fst).Pairwise (· < ·)
  count : (outputs.filter fun output => !output.scriptPubkey.isOpReturn).length = proofs.length
  passed : ∀ entry ∈ proofs, ∃ output, outputs[entry.1]? = some output ∧
    (output.scriptPubkey.isOpReturn = false → passes entry.2 output)
  spendable : ¬ passesOver → NoneOfOpReturn outputs proofs
  summed : ∀ total ∈ announced, (proofs.map fun entry => amount entry.2).sum = total

/-- Counting suffices exactly when no proof is of an `OP_RETURN` output, and the comparison of
the sums when they fit. -/
theorem Accepted.outputsProved_iff {passes : π → TxOut → Prop} {amount : π → U128}
    {announced : Option U128} {passesOver : Prop}
    (accepted : Accepted passes amount outputs proofs announced passesOver) :
    OutputsProved passes amount outputs proofs announced ↔
      (passesOver → NoneOfOpReturn outputs proofs) ∧
        (announced.isSome → exactSum (proofs.map fun entry => amount entry.2) < 2 ^ 128) := by
  constructor
  · intro proved
    constructor
    · intro _ entry mem output found
      obtain ⟨other, there, spendable⟩ := proved.bijective.mapsTo mem
      obtain rfl := Option.some.inj (found.symm.trans there)
      exact spendable
    · intro isSome
      obtain ⟨total, isTotal⟩ := Option.isSome_iff_exists.mp isSome
      rw [proved.amounts total isTotal]
      exact total.isLt
  · rintro ⟨passedOver, fits⟩
    have spendable : NoneOfOpReturn outputs proofs := by
      by_cases skipped : passesOver
      · exact passedOver skipped
      · exact accepted.spendable skipped
    have ofEntry : ∀ entry ∈ proofs, ∃ output, outputs[entry.1]? = some output ∧
        output.scriptPubkey.isOpReturn = false ∧ passes entry.2 output := by
      intro entry mem
      obtain ⟨output, found, passes⟩ := accepted.passed entry mem
      have isSpendable := spendable entry mem output found
      exact ⟨output, found, isSpendable, passes isSpendable⟩
    have distinct : (proofs.map Prod.fst).Nodup := accepted.sorted.imp Nat.ne_of_lt
    have covered := @Indices.mem_iff_of_count TxOut (fun output => !output.scriptPubkey.isOpReturn)
      outputs (proofs.map Prod.fst) distinct (by
        intro index mem
        obtain ⟨entry, isEntry, rfl⟩ := List.mem_map.mp mem
        obtain ⟨output, found, isSpendable, -⟩ := ofEntry entry isEntry
        exact ⟨output, found, by simp [isSpendable]⟩) (by rw [accepted.count, List.length_map])
    refine ⟨⟨?_, ?_, ?_⟩, ?_, ?_⟩
    · intro entry mem
      obtain ⟨output, found, isSpendable, -⟩ := ofEntry entry mem
      exact ⟨output, found, isSpendable⟩
    · exact List.inj_on_of_nodup_map distinct
    · rintro vout ⟨output, found, isSpendable⟩
      obtain ⟨entry, mem, rfl⟩ := List.mem_map.mp
        ((covered vout).mpr ⟨output, found, by simp [isSpendable]⟩)
      exact ⟨entry, mem, rfl⟩
    · intro entry mem
      obtain ⟨output, found, -, passes⟩ := ofEntry entry mem
      exact ⟨output, found, passes⟩
    · intro total isTotal
      rw [← accepted.summed total isTotal, wrappingSum_val,
        Nat.mod_eq_of_lt (fits (Option.isSome_of_mem isTotal))]

/-- A loop that passes over `OP_RETURN` outputs has looked at every proof of another output. -/
theorem passed_of_passingOver {ε ε' : Type}
    (check : π → TxOut → Except ε Unit) (rename : π → Nat → ε → ε')
    (passed : ∀ entry ∈ proofs, ∃ output, outputs[entry.1]? = some output ∧
      (if output.scriptPubkey.isOpReturn then .ok ()
        else (check entry.2 output).mapError (rename entry.2 entry.1)) = .ok ()) :
    ∀ entry ∈ proofs, ∃ output, outputs[entry.1]? = some output ∧
      (output.scriptPubkey.isOpReturn = false → check entry.2 output = .ok ()) := by
  intro entry mem
  obtain ⟨output, found, checked⟩ := passed entry mem
  refine ⟨output, found, fun spendable => ?_⟩
  rw [if_neg (by simp [spendable])] at checked
  exact mapError_eq_ok.mp checked

/-- A loop that passes over nothing: what passes pays to a lock, which is not `OP_RETURN`. -/
theorem Accepted.of_strict (prims : Primitives) {passes : π → TxOut → Prop} {amount : π → U128}
    {passesOver : Prop} (sorted : (proofs.map Prod.fst).Pairwise (· < ·))
    (count : (outputs.filter fun output => !output.scriptPubkey.isOpReturn).length = proofs.length)
    (pays : ∀ proof output, passes proof output →
      ∃ lock : Lock, output.scriptPubkey = lock.script prims)
    (passed : ∀ entry ∈ proofs, ∃ output, outputs[entry.1]? = some output ∧ passes entry.2 output) :
    Accepted passes amount outputs proofs none passesOver := by
  refine ⟨sorted, count, fun entry mem => ?_, fun _ entry mem output found => ?_,
    nofun⟩
  · obtain ⟨output, found, passes⟩ := passed entry mem
    exact ⟨output, found, fun _ => passes⟩
  · obtain ⟨other, there, passes⟩ := passed entry mem
    obtain rfl := Option.some.inj (found.symm.trans there)
    obtain ⟨lock, script⟩ := pays entry.2 output passes
    rw [script]
    exact Lock.isOpReturn_script prims lock

end Proofs

theorem announced_of_checkIssueAnnouncementIsolated {prims : Primitives}
    {announcement : IssueAnnouncement} {outputs : List TxOut} {amount : U128}
    (found : checkIssueAnnouncementIsolated prims announcement outputs = .ok amount) :
    amount = announcement.amount := by
  induction outputs with
  | nil => cases found
  | cons output rest ih =>
    unfold checkIssueAnnouncementIsolated at found
    cases parsed : IssueAnnouncement.fromScript prims output.scriptPubkey with
    | none =>
      rw [parsed] at found
      exact ih found
    | some issue =>
      rw [parsed] at found
      dsimp only at found
      split at found
      case isTrue => cases found
      case isFalse same =>
        obtain rfl := Except.ok.inj found
        rw [not_not.mp same]

theorem token_of_checkSameTokenPubkeyProofs {proofs : List ReceiptProof}
    {announcement : IssueAnnouncement}
    (checked : checkSameTokenPubkeyProofs proofs announcement = .ok ()) {proof : ReceiptProof}
    (mem : proof ∈ proofs) (notEmpty : proof.isEmptyReceiptproof = false) :
    proof.receipt.tokenPubkey = announcement.tokenPubkey := by
  have kept : proof ∈ proofs.filter fun proof => !proof.isEmptyReceiptproof := by
    simp [mem, notEmpty]
  unfold checkSameTokenPubkeyProofs at checked
  split at checked
  case h_1 empty =>
    rw [empty] at kept
    cases kept
  case h_2 first rest filtered =>
    split at checked
    case isTrue => cases checked
    case isFalse announced =>
      split at checked
      case isFalse => cases checked
      case isTrue same =>
        rw [filtered] at kept
        have own := of_decide_eq_true (List.all_eq_true.mp same proof kept)
        rw [own, not_not.mp announced]

theorem token_of_checkIssueIsolated {prims : Primitives} {bitcoinTx : Transaction}
    {outputProofs : Option ProofMap} {announcement : IssueAnnouncement}
    (checked : checkIssueIsolated prims bitcoinTx outputProofs announcement = .ok ())
    {entry : Nat × ReceiptProof}
    (mem : entry ∈ (Lrc20Transaction.mk bitcoinTx (.issue outputProofs announcement)).outputs)
    (notEmpty : entry.2.isEmptyReceiptproof = false) :
    entry.2.receipt.tokenPubkey = announcement.tokenPubkey := by
  cases outputProofs with
  | none => cases checked
  | some proofs =>
    obtain ⟨_, -, rest⟩ := bind_eq_ok.mp checked
    obtain ⟨_, -, rest⟩ := bind_eq_ok.mp rest
    obtain ⟨_, same, -⟩ := bind_eq_ok.mp rest
    exact token_of_checkSameTokenPubkeyProofs same (List.mem_map_of_mem mem) notEmpty

/-! ### Without bulletproofs -/

section Plain

variable {prims : Primitives} {α : Type} {check : ProofForCheck α → Except CheckError Unit}

theorem passed_of_checkEach {proofs : List (ProofForCheck α)}
    (passed : checkEach check proofs = .ok ()) : ∀ gathered ∈ proofs, check gathered = .ok () := by
  refine passed_of_loop (fun first rest => ?_) passed
  rw [checkEach]
  cases check first <;> rfl

theorem passed_of_extract {proofMap : ProofMap} {iterable : List α}
    {gathered : List (ProofForCheck α)}
    (extracted : extractFromIterableByProofMap proofMap iterable = .ok gathered)
    (passed : checkEach check gathered = .ok ()) :
    ∀ entry ∈ proofMap.entries, ∃ item, iterable[entry.1]? = some item ∧
      check ⟨item, entry.1, entry.2⟩ = .ok () :=
  passed_of_lookups ProofForCheck.mk (fun _ => rfl) extracted (passed_of_checkEach passed)

def announcedAmount (tx : Lrc20Transaction) : Option U128 :=
  match tx.txType with
  | .issue _ announcement => some announcement.amount
  | _ => none

/-- An issue or an exit has no proof of an `OP_RETURN` output, and the amounts of an issue add up
to a number that fits. -/
structure Ordinary (tx : Lrc20Transaction) : Prop where
  spendable : tx.txType.inputProofs = none → NoneOfOpReturn tx.bitcoinTx.output tx.outputs
  fits : tx.txType.isIssue → exactSum (tx.outputs.map fun entry => entry.2.amount) < 2 ^ 128

theorem accepted_of_checkTransaction {tx : Lrc20Transaction}
    (accepted : checkTransaction prims tx = .ok ()) (proofs : tx.txType.isAnnouncement = false) :
    Accepted (fun proof output => proof.checkedCheckByOutput prims output = .ok ())
      ReceiptProof.amount tx.bitcoinTx.output tx.outputs (announcedAmount tx)
      (tx.txType.inputProofs = none) := by
  obtain ⟨bitcoinTx, txType⟩ := tx
  cases txType with
  | announcement announcement => cases proofs
  | issue outputProofs announcement =>
    cases outputProofs with
    | none => cases accepted
    | some outputProofs =>
      obtain ⟨announced, foundAmount, rest⟩ := bind_eq_ok.mp accepted
      obtain ⟨_, counted, rest⟩ := bind_eq_ok.mp rest
      obtain ⟨_, -, rest⟩ := bind_eq_ok.mp rest
      obtain ⟨gathered, extracted, rest⟩ := bind_eq_ok.mp rest
      obtain ⟨_, passed, summed⟩ := bind_eq_ok.mp rest
      refine ⟨outputProofs.sorted, (ite_eq_ok.mp counted).1,
        passed_of_passingOver (fun proof => proof.checkedCheckByOutput prims)
          CheckError.invalidProof (passed_of_extract extracted passed), absurd rfl, ?_⟩
      intro total isTotal
      obtain rfl := Option.some.inj isTotal
      dsimp only at summed
      split at summed
      case isTrue => cases summed
      case isFalse same =>
        rw [← announced_of_checkIssueAnnouncementIsolated foundAmount, ← not_not.mp same]
        simp only [ProofMap.values, List.map_map]
        rfl
  | transfer inputProofs outputProofs =>
    obtain ⟨_, counted, rest⟩ := bind_eq_ok.mp accepted
    obtain ⟨_, -, rest⟩ := bind_eq_ok.mp rest
    obtain ⟨gathered, extracted, rest⟩ := bind_eq_ok.mp rest
    obtain ⟨_, -, rest⟩ := bind_eq_ok.mp rest
    obtain ⟨_, passed, -⟩ := bind_eq_ok.mp rest
    refine .of_strict prims outputProofs.sorted (ite_eq_ok.mp counted).1
      (fun proof output checked => ?_) fun entry mem => ?_
    · obtain ⟨_, lock, -, pays⟩ := ReceiptProof.script_of_checkedCheckByOutput checked
      exact ⟨lock, pays⟩
    · obtain ⟨output, found, checked⟩ := passed_of_extract extracted passed entry mem
      exact ⟨output, found, mapError_eq_ok.mp checked⟩
  | sparkExit outputProofs =>
    obtain ⟨_, counted, rest⟩ := bind_eq_ok.mp accepted
    obtain ⟨gathered, extracted, passed⟩ := bind_eq_ok.mp rest
    exact ⟨outputProofs.sorted, (ite_eq_ok.mp counted).1,
      passed_of_passingOver (fun proof => proof.checkedCheckByOutput prims)
        CheckError.invalidProof (passed_of_extract extracted passed), absurd rfl,
      nofun⟩

theorem outputsProved_iff_ordinary {tx : Lrc20Transaction}
    (accepted : checkTransaction prims tx = .ok ()) (proofs : tx.txType.isAnnouncement = false) :
    OutputsProved (fun proof output => proof.checkedCheckByOutput prims output = .ok ())
      ReceiptProof.amount tx.bitcoinTx.output tx.outputs (announcedAmount tx) ↔ Ordinary tx := by
  rw [(accepted_of_checkTransaction accepted proofs).outputsProved_iff]
  have announces : (announcedAmount tx).isSome = tx.txType.isIssue := by
    unfold announcedAmount
    cases tx.txType <;> rfl
  rw [announces]
  exact ⟨fun both => ⟨both.1, both.2⟩, fun ordinary => ⟨ordinary.spendable, ordinary.fits⟩⟩

end Plain

/-! ### With bulletproofs -/

namespace WithBulletproofs

section Checks

variable {prims : Primitives} {verify : ProjectivePoint → RangeProof → Bool}
  {conserves : List Bulletproof → List Bulletproof → Except Confidential.CheckError Unit}
  {α : Type} {check : ProofForCheck α → Except CheckError Unit}

theorem passed_of_checkEach {proofs : List (ProofForCheck α)}
    (passed : checkEach check proofs = .ok ()) : ∀ gathered ∈ proofs, check gathered = .ok () :=
  passed_of_loop (fun _ _ => rfl) passed

theorem passed_of_extract {proofMap : ProofMap} {iterable : List α}
    {gathered : List (ProofForCheck α)}
    (extracted : extractFromIterableByProofMap proofMap iterable = .ok gathered)
    (passed : checkEach check gathered = .ok ()) :
    ∀ entry ∈ proofMap.entries, ∃ item, iterable[entry.1]? = some item ∧
      check ⟨item, entry.1, entry.2⟩ = .ok () :=
  passed_of_lookups ProofForCheck.mk (fun _ => rfl) extracted (passed_of_checkEach passed)

def amount (proof : AnyReceiptProof) : U128 := proof.receipt.tokenAmount.amount

def outputs (tx : Lrc20Transaction) : List (Nat × AnyReceiptProof) :=
  match tx.txType with
  | .issue (some outputProofs) _ => outputProofs.entries
  | .transfer _ outputProofs => outputProofs.entries
  | .sparkExit outputProofs => outputProofs.entries
  | _ => []

/-- The announced amount of an issue without bulletproofs. -/
def announcedAmount (tx : Lrc20Transaction) : Option U128 :=
  match tx.txType with
  | .issue _ announcement =>
    if (outputs tx).any fun entry => isBulletproof entry.2 then none
    else some announcement.amount
  | _ => none

/-- An issue or an exit has no proof of an `OP_RETURN` output, and the amounts of an issue without
bulletproofs add up to a number that fits. -/
structure Ordinary (tx : Lrc20Transaction) : Prop where
  spendable : (∀ inputProofs outputProofs, tx.txType ≠ .transfer inputProofs outputProofs) →
    NoneOfOpReturn tx.bitcoinTx.output (outputs tx)
  fits : (announcedAmount tx).isSome →
    exactSum ((outputs tx).map fun entry => amount entry.2) < 2 ^ 128

theorem accepted_of_checkTransaction {tx : Lrc20Transaction}
    (accepted : checkTransaction prims verify conserves tx = .ok ())
    (proofs : ∀ announcement, tx.txType ≠ .announcement announcement) :
    Accepted (fun proof output => proof.checkedCheckByOutput prims verify output = .ok ())
      amount tx.bitcoinTx.output (outputs tx) (announcedAmount tx)
      (∀ inputProofs outputProofs, tx.txType ≠ .transfer inputProofs outputProofs) := by
  obtain ⟨bitcoinTx, txType⟩ := tx
  cases txType with
  | announcement announcement => exact absurd rfl (proofs announcement)
  | issue outputProofs announcement =>
    cases outputProofs with
    | none => cases accepted
    | some outputProofs =>
      obtain ⟨announced, foundAmount, rest⟩ := bind_eq_ok.mp accepted
      obtain ⟨_, counted, rest⟩ := bind_eq_ok.mp rest
      obtain ⟨_, -, rest⟩ := bind_eq_ok.mp rest
      obtain ⟨gathered, extracted, rest⟩ := bind_eq_ok.mp rest
      obtain ⟨_, passed, summed⟩ := bind_eq_ok.mp rest
      refine ⟨outputProofs.sorted, (ite_eq_ok.mp counted).1,
        passed_of_passingOver (fun proof => proof.checkedCheckByOutput prims verify)
          CheckError.invalidProof (passed_of_extract extracted passed),
        fun transfers => absurd nofun transfers, ?_⟩
      intro total isTotal
      have confidential : outputProofs.values.any isBulletproof =
          outputProofs.entries.any fun entry => isBulletproof entry.2 := by
        simp only [ProofMap.values, List.any_map]
        rfl
      change (if (outputProofs.entries.any fun entry => isBulletproof entry.2) = true then none
        else some announcement.amount) = some total at isTotal
      rw [confidential] at summed
      by_cases plain : (outputProofs.entries.any fun entry => isBulletproof entry.2) = true
      · rw [if_pos plain] at isTotal
        cases isTotal
      · rw [if_neg plain] at isTotal summed
        obtain rfl := Option.some.inj isTotal
        dsimp only at summed
        split at summed
        case isTrue => cases summed
        case isFalse same =>
          rw [← announced_of_checkIssueAnnouncementIsolated (mapError_eq_ok.mp foundAmount),
            ← not_not.mp same]
          simp only [ProofMap.values, List.map_map]
          rfl
  | transfer inputProofs outputProofs =>
    obtain ⟨_, counted, rest⟩ := bind_eq_ok.mp accepted
    obtain ⟨_, -, rest⟩ := bind_eq_ok.mp rest
    obtain ⟨gathered, extracted, rest⟩ := bind_eq_ok.mp rest
    obtain ⟨_, -, rest⟩ := bind_eq_ok.mp rest
    obtain ⟨_, passed, -⟩ := bind_eq_ok.mp rest
    refine .of_strict prims outputProofs.sorted (ite_eq_ok.mp counted).1
      (fun proof output checked => ?_) fun entry mem => ?_
    · obtain ⟨_, lock, -, pays⟩ := AnyReceiptProof.script_of_checkedCheckByOutput checked
      exact ⟨lock, pays⟩
    · obtain ⟨output, found, checked⟩ := passed_of_extract extracted passed entry mem
      exact ⟨output, found, mapError_eq_ok.mp checked⟩
  | sparkExit outputProofs =>
    obtain ⟨_, counted, rest⟩ := bind_eq_ok.mp accepted
    obtain ⟨gathered, extracted, passed⟩ := bind_eq_ok.mp rest
    exact ⟨outputProofs.sorted, (ite_eq_ok.mp counted).1,
      passed_of_passingOver (fun proof => proof.checkedCheckByOutput prims verify)
        CheckError.invalidProof (passed_of_extract extracted passed),
      fun transfers => absurd nofun transfers,
      nofun⟩

end Checks

end WithBulletproofs

/-- In both builds, the outputs of an accepted issue, transfer or exit are proved exactly when it
is ordinary. -/
theorem accepted_outputs_proved (prims : Primitives) (verify : ProjectivePoint → RangeProof → Bool)
    (conserves : List Bulletproof → List Bulletproof → Except Confidential.CheckError Unit) :
    (∀ tx : Lrc20Transaction, tx.txType.isAnnouncement = false →
      checkTransaction prims tx = .ok () →
      (OutputsProved (fun proof output => proof.checkedCheckByOutput prims output = .ok ())
        ReceiptProof.amount tx.bitcoinTx.output tx.outputs (announcedAmount tx) ↔ Ordinary tx)) ∧
    ∀ tx : WithBulletproofs.Lrc20Transaction,
      (∀ announcement, tx.txType ≠ .announcement announcement) →
      WithBulletproofs.checkTransaction prims verify conserves tx = .ok () →
      (OutputsProved (fun proof output => proof.checkedCheckByOutput prims verify output = .ok ())
        WithBulletproofs.amount tx.bitcoinTx.output (WithBulletproofs.outputs tx)
        (WithBulletproofs.announcedAmount tx) ↔ WithBulletproofs.Ordinary tx) := by
  refine ⟨fun tx proofs accepted => outputsProved_iff_ordinary accepted proofs,
    fun tx proofs accepted => ?_⟩
  rw [(WithBulletproofs.accepted_of_checkTransaction accepted proofs).outputsProved_iff]
  exact ⟨fun both => ⟨both.1, both.2⟩, fun ordinary => ⟨ordinary.spendable, ordinary.fits⟩⟩

def issuedToken : TokenPubkey := PublicKey.repeating 3

def issuedProof (amount : U128) : P2WPKHProof :=
  ⟨⟨TokenAmount.new amount, issuedToken⟩, PublicKey.repeating 5, none⟩

def outputOf (proof : P2WPKHProof) : TxOut :=
  ⟨match proof.receiptKey .plain with
    | some key => Primitives.plain.toP2wpkh key
    | none => []⟩

def announcementOutput (announced : U128) : TxOut :=
  ⟨(Announcement.issue ⟨issuedToken, announced⟩).toScript⟩

/-- An issue whose announcement is followed by one output for each proof. -/
def issueWith (announced : U128) (amounts : List U128) (proofs : ProofMap) : Lrc20Transaction :=
  ⟨⟨1, [], announcementOutput announced :: amounts.map fun amount => outputOf (issuedProof amount)⟩,
    .issue (some proofs) ⟨issuedToken, announced⟩⟩

def proofsOf (first : Nat) (amounts : List U128) : ProofMap where
  entries := (List.range' first amounts.length).zip
    (amounts.map fun amount => .sig (issuedProof amount))
  sorted := by
    rw [List.map_fst_zip (by simp)]
    exact List.pairwise_lt_range'

/-- An issue of seven to two outputs. -/
theorem accepted_outputs_proved_seven :
    checkTransaction .plain (issueWith 7 [3, 4] (proofsOf 1 [3, 4])) = .ok () ∧
      OutputsProved (fun proof output => proof.checkedCheckByOutput .plain output = .ok ())
        ReceiptProof.amount (issueWith 7 [3, 4] (proofsOf 1 [3, 4])).bitcoinTx.output
        (issueWith 7 [3, 4] (proofsOf 1 [3, 4])).outputs (some 7) := by
  have accepted : checkTransaction .plain (issueWith 7 [3, 4] (proofsOf 1 [3, 4])) = .ok () := by
    decide +kernel
  have ordinary : Ordinary (issueWith 7 [3, 4] (proofsOf 1 [3, 4])) := by
    constructor
    · intro _
      decide +kernel
    · intro _
      decide +kernel
  have proved := (accepted_outputs_proved .plain (fun _ _ => true) (fun _ _ => .ok ())).1
    (issueWith 7 [3, 4] (proofsOf 1 [3, 4])) rfl accepted
  exact ⟨accepted, proved.mpr ordinary⟩

/-- An issue with the one proof at its announcement leaves its output without any, and the amounts
of an accepted issue can add up to more than is announced. -/
theorem unproved_output_accepted :
    checkTransaction .plain (issueWith 7 [7] (proofsOf 0 [7])) = .ok () ∧
      ¬ OutputsProved (fun proof output => proof.checkedCheckByOutput .plain output = .ok ())
        ReceiptProof.amount (issueWith 7 [7] (proofsOf 0 [7])).bitcoinTx.output
        (issueWith 7 [7] (proofsOf 0 [7])).outputs (some 7) ∧
      checkTransaction .plain
        (issueWith 1 [2 ^ 128 - 1, 2] (proofsOf 1 [2 ^ 128 - 1, 2])) = .ok () ∧
      exactSum ((issueWith 1 [2 ^ 128 - 1, 2] (proofsOf 1 [2 ^ 128 - 1, 2])).outputs.map
        fun entry => entry.2.amount) = 2 ^ 128 + 1 := by
  refine ⟨by decide +kernel, ?_, by decide +kernel, by decide +kernel⟩
  intro proved
  have surjective := proved.bijective.surjOn
  obtain ⟨entry, mem, index⟩ := @surjective 1 ⟨outputOf (issuedProof 7), rfl, by decide +kernel⟩
  have indices : ∀ entry ∈ (issueWith 7 [7] (proofsOf 0 [7])).outputs, entry.1 = 0 := by
    decide +kernel
  rw [indices entry mem] at index
  cases index

end Lrc20.TxCheck

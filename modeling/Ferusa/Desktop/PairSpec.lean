import Ferusa.Desktop.Logic

/-!
# What pairing and recovery leave behind

The desktop side of a pairing, step by step, in front of any outside: it
leaves the vault and the pairing alone until the transaction is
recorded, a transition is recorded when the phone has acknowledged it,
and recovery ends with nothing recorded or fails.
-/

namespace Desktop

open Logic Directory DeskProg

variable {ν : Type} {O : Outside ν} {faults : Faults} {K : ν → Prop}
  {sess : Option SessionState} {v w : Directory} {F : World ν → Prop}

/-- Nothing depends on the session as far as failures at all go. -/
def Faults.Uniform (faults : Faults) : Prop :=
  ∀ sess sess', Reliable (faults sess) → Reliable (faults sess')

/-- **The two directories agree** on the vault, the pairing and the
transaction. -/
def CoreEq (v w : Directory) : Prop := ∀ f ∈ coreFiles, w f = v f

theorem CoreEq.refl (v : Directory) : CoreEq v v := fun _ _ => rfl

theorem CoreEq.trans {u : Directory} (h : CoreEq u v) (h' : CoreEq v w) : CoreEq u w :=
  fun f hf => (h' f hf).trans (h f hf)

theorem CoreEq.put {f : FileName} (hf : f ∉ coreFiles) (contents : Content) :
    CoreEq v (v.put f contents) := by
  intro g hg
  have hne : g ≠ f := fun he => hf (he ▸ hg)
  rw [put_apply, if_neg hne]

theorem CoreEq.drop {f : FileName} (hf : f ∉ coreFiles) : CoreEq v (v.drop f) := by
  intro g hg
  have hne : g ≠ f := fun he => hf (he ▸ hg)
  rw [drop_apply, if_neg hne]

theorem CoreEq.records (h : CoreEq v w) {file : PairingTxnFile} (hr : v.Records file) :
    w.Records file :=
  (h _ (by decide)).trans hr

theorem CoreEq.noRecord (h : CoreEq v w) (hv : v.NoRecord) : w.NoRecord :=
  (h _ (by decide)).trans hv

/-- A program started somewhere. -/
theorem somewhere_runs {α : Type} {X : Directory → Prop} {p : DeskProg α}
    {Q : α → World ν → Prop}
    (h : ∀ w, X w → DeskRuns O faults F (At faults sess w K) p Q) :
    DeskRuns O faults F (Somewhere faults sess X K) p Q :=
  Triple.exists fun w => Triple.given (h w)

theorem Somewhere.mono {X X' : Directory → Prop} {K' : ν → Prop} {s : World ν}
    (h : Somewhere faults sess X K s) (hX : ∀ w, X w → X' w) (hK : ∀ x, K x → K' x) :
    Somewhere faults sess X' K' s := by
  obtain ⟨w, hw, hs⟩ := h
  exact ⟨w, hX w hw, hs.mono hK⟩

/-- **A program that leaves the core of the directory alone.** -/
abbrev Harmless {α : Type} (O : Outside ν) (faults : Faults) (p : DeskProg α) : Prop :=
  ∀ sess v K, O.Lasts K → DeskRuns O faults (Somewhere faults sess (CoreEq v) K)
    (At faults sess v K) p (fun _ => Somewhere faults sess (CoreEq v) K)

/-! ## Small programs -/

theorem pathExists_known (f : FileName) (hK : O.Lasts K) :
    DeskRuns O faults F (At faults sess v K) (files (pathExists f))
      (fun b s => b = (v f).isSome ∧ At faults sess v K s) :=
  (desk_error (files_recover_runs (X := fun _ => False) (pathExists_runs f) hK)
    fun _ ⟨_, hw, _⟩ => hw.elim).post fun _ _ _ ⟨⟨hb, hs⟩, hsess, hk⟩ => ⟨hb, hsess, hs, hk⟩

/-- A program on the files that leaves the directory as it is. -/
theorem files_known {α : Type} {p : FileProg α}
    (h : Runs (faults sess) .recover (· = v) (Snapshot (faults sess) v) p
      (fun _ => Snapshot (faults sess) v)) (hK : O.Lasts K)
    (hF : ∀ s, At faults sess v K s → F s) :
    DeskRuns O faults F (At faults sess v K) (files p) (fun _ => At faults sess v K) :=
  (files_read_runs (R := fun _ => True) (h.post fun _ _ _ hs => ⟨trivial, hs⟩) hK hF).post
    fun _ _ _ hs => hs.2

theorem loadPeerKey_runs : Harmless O faults loadPeerKey := by
  intro sess v K hK
  have hF : ∀ s, At faults sess v K s → Somewhere faults sess (CoreEq v) K s :=
    fun s hs => hs.somewhere (.refl v)
  refine Triple.bind (pathExists_known _ hK) fun present => Triple.given fun _ => ?_
  cases present with
  | true =>
    refine Triple.bind (files_known (Triple.context (quiet_snapshot_runs fun _ => rfl)) hK hF)
      fun _ => ?_
    refine Triple.bind (files_read_runs (readFile_runs _ (fun _ => rfl) fun _ => rfl) hK hF)
      fun contents => Triple.given fun _ => ?_
    cases contents with
    | bytes raw => exact (desk_ensure hK fun s hs _ => hF s hs).post fun _ s _ hs => hF s hs.2
    | _ => exact desk_fail hK hF
  | false =>
    refine Triple.bind (ask_any_runs hK trivial) fun key => ?_
    have hnot : FileName.peerId ∉ coreFiles := by decide
    refine (desk_error (files_recover_runs (Triple.context
      (writePrivateFile_uncertain (.other hnot))) hK) ?_).post ?_
    · rintro s ⟨_, ⟨rfl | rfl, -⟩, hs⟩
      · exact hF s hs
      · exact hs.somewhere (.put hnot _)
    · rintro _ s - ⟨hs, hsess, hk⟩
      exact ⟨_, .put hnot _, hsess, hs, hk⟩

/-- **`CliPeer::init`.** -/
theorem initPeer_runs : Harmless O faults initPeer := by
  intro sess v K hK
  refine Triple.bind (loadPeerKey_runs sess v K hK) fun _ => somewhere_runs fun w hw => ?_
  refine Triple.bind (ask_any_runs hK trivial) fun r => ?_
  exact (answer_runs hK fun s hs => hs.somewhere hw).post fun _ _ _ hs => hs.2.somewhere hw

/-! ## Messages -/

/-- The acknowledgements of the phone. -/
def IsAck : FerusaMessage → Prop
  | .pairingCommitAck _ => True
  | .pairingActivateAck _ => True
  | _ => False

theorem Outside.Lasts.imp {φ : Prop} {K : ν → Prop} (h : O.Lasts K) : O.Lasts fun x => φ → K x :=
  ⟨fun hr hx hp => h.rely hr (hx hp), fun he hx hp => h.exec he (hx hp),
    fun hn hx hp => h.note hn (hx hp)⟩

theorem Outside.Lasts.all {ι : Sort _} {K : ι → ν → Prop} (h : ∀ i, O.Lasts (K i)) :
    O.Lasts fun x => ∀ i, K i x :=
  ⟨fun hr hx i => (h i).rely hr (hx i), fun he hx i => (h i).exec he (hx i),
    fun hn hx i => (h i).note hn (hx i)⟩

theorem sendMessage_runs {message : String} {conn : Conn} {m : FerusaMessage} (hK : O.Lasts K)
    (hsend : Sendable v (.send conn m)) (hF : ∀ s, At faults sess v K s → F s) :
    DeskRuns O faults F (At faults sess v K) (sendMessage message conn m)
      (fun _ => At faults sess v K) :=
  Triple.bind (ask_any_runs hK hsend) fun _ =>
    (answer_runs hK hF).post fun _ _ _ hs => hs.2

/-- **A message is received**; an acknowledgement was sent by the
phone. -/
theorem readAck_runs {message : String} {conn : Conn} (hK : O.Lasts K)
    (hF : ∀ s, At faults sess v K s → F s) :
    DeskRuns O faults F (At faults sess v K) (readFerusaMessage message conn)
      (fun m => At faults sess v fun x => K x ∧ (IsAck m → O.Acked m x)) := by
  have hlast (r : Except String FerusaMessage) :
      O.Lasts fun x => ∀ m, r = .ok m → IsAck m → O.Acked m x :=
    .all fun m => .imp (.imp (.acked O m))
  refine Triple.bind (ask_runs (.receive conn)
    (fun (r : Except String FerusaMessage) x => ∀ m, r = .ok m → IsAck m → O.Acked m x)
    hK hlast trivial ?_) fun r => ?_
  · rintro s r y hi - hx m rfl hm
    cases m with
    | pairingCommitAck id => exact O.commitAck hi hx
    | pairingActivateAck id => exact O.activateAck hi hx
    | _ => exact hm.elim
  · exact (answer_runs (hK.and (hlast r)) fun s hs => hF s (hs.mono fun _ h => h.1)).post
      fun m _ _ ⟨hm, hs⟩ => hs.mono fun _ h => ⟨h.1, h.2 m hm⟩

/-- An acknowledged transition, whichever connection it takes. -/
theorem ensureAck_runs {message : String} {m expected : FerusaMessage} (hack : IsAck expected)
    (hK : O.Lasts K) (hF : ∀ s, At faults sess v K s → F s) :
    DeskRuns O faults F (At faults sess v fun x => K x ∧ (IsAck m → O.Acked m x))
      (Prog.ensure (m = expected) message)
      (fun _ => At faults sess v fun x => K x ∧ O.Acked expected x) := by
  refine (desk_ensure (hK.and (.imp (.acked O m))) fun s hs _ =>
    hF s (hs.mono fun _ h => h.1)).post ?_
  rintro _ s - ⟨rfl, hs⟩
  exact hs.mono fun _ h => ⟨h.1, h.2 hack⟩

/-- **`send_pairing_transition`.** -/
theorem sendPairingTransition_runs {conn : Conn} {request expected : FerusaMessage}
    {step : String} (hack : IsAck expected) (hK : O.Lasts K)
    (hsend : Sendable v (.send conn request)) (hF : ∀ s, At faults sess v K s → F s) :
    DeskRuns O faults F (At faults sess v K) (sendPairingTransition conn request expected step)
      (fun _ => At faults sess v fun x => K x ∧ O.Acked expected x) :=
  Triple.bind (sendMessage_runs hK hsend hF) fun _ =>
    Triple.bind (readAck_runs hK hF) fun _ => ensureAck_runs hack hK hF

theorem Sendable.coreEq {conn : Conn} {m : FerusaMessage} (h : Sendable v (.send conn m))
    (hw : CoreEq v w) : Sendable w (.send conn m) := by
  cases m with
  | pairingCommit id =>
    obtain ⟨file, hrec, hid⟩ := h
    exact ⟨file, hw.records hrec, hid⟩
  | pairingActivate id =>
    obtain ⟨file, hrec, hid⟩ := h
    exact ⟨file, hw.records hrec, hid⟩
  | _ => trivial

/-! ## Recovery -/

/-- Reading the pairing of the transaction under way. -/
theorem readRecoveryPairing_runs {op : FileOp} {faults : Directory → Prop} :
    Runs faults op (· = v) (Snapshot faults v) readRecoveryPairing
      (fun _ s => True ∧ Snapshot faults v s) := by
  refine Triple.bind (pathExists_runs _) fun pending => Triple.given fun _ => ?_
  have hparsed : ∀ r : Except PairingReadError PairingData,
      Runs faults op (· = v) (Snapshot faults v)
        (Prog.ofExcept (r.mapError PairingReadError.intoAnyhow))
        (fun _ s => True ∧ Snapshot faults v s) := fun r =>
    Triple.ofExcept (stable _) (fun _ _ _ _ hs => ⟨trivial, hs⟩) fun _ _ _ _ hs => ⟨v, rfl, hs⟩
  cases pending with
  | true =>
    refine Triple.bind (readFile_runs _ (fun _ => rfl) fun _ => rfl) fun contents =>
      Triple.given fun _ => ?_
    cases contents.asPairing with
    | ok file => exact hparsed _
    | error e => exact runs_fail rfl
  | false =>
    refine Triple.bind (pathExists_runs _) fun present => Triple.given fun _ => ?_
    cases present with
    | true => exact Triple.bind (readPairingDataFromState_runs) fun r => Triple.given fun _ => hparsed r
    | false => exact runs_fail rfl

/-- **`send_recovery_transition`.** -/
theorem sendRecoveryTransition_runs {request expected : FerusaMessage}
    (hack : IsAck expected) (hK : O.Lasts K) (hsend : ∀ conn, Sendable v (.send conn request)) :
    DeskRuns O faults (Somewhere faults sess (CoreEq v) K) (At faults sess v K)
      (sendRecoveryTransition request expected)
      (fun _ => Somewhere faults sess (CoreEq v) fun x => K x ∧ O.Acked expected x) := by
  refine Triple.bind (files_read_runs readRecoveryPairing_runs hK fun s hs =>
    hs.somewhere (.refl v)) fun pairing => Triple.given fun _ => ?_
  refine Triple.bind (initPeer_runs sess v K hK) fun _ => somewhere_runs fun w hw => ?_
  have hF : ∀ s, At faults sess w K s → Somewhere faults sess (CoreEq v) K s :=
    fun s hs => hs.somewhere hw
  refine Triple.bind (ask_any_runs hK trivial) fun r => ?_
  refine Triple.bind (answer_runs hK hF) fun conn' => Triple.given fun _ => ?_
  refine Triple.bind (sendMessage_runs hK ((hsend conn').coreEq hw) hF) fun _ => ?_
  refine Triple.bind (ask_any_runs hK trivial) fun r => ?_
  refine Triple.bind (answer_runs hK hF) fun _ => Triple.given fun _ => ?_
  refine Triple.bind (readAck_runs hK hF) fun m => ?_
  exact (ensureAck_runs hack hK hF).post fun _ _ _ hs => hs.somewhere hw

/-- **The phase the phone has acknowledged is recorded.** -/
theorem advanceAcked_runs {phase : PairingTxnPhase} {file : PairingTxnFile} {expected : FerusaMessage}
    (hrec : v.Records file) (hversion : file.version = 2) (hK : O.Lasts K)
    (hstep : FileStep (.advance phase file.pairingId) v
      (v.put .pairingTransactionState (.transaction { file with phase })))
    (hallow : ∀ s, O.Acked expected s.out → O.Allows faults s (.advance phase file.pairingId)) :
    DeskRuns O faults
      (Somewhere faults sess (Uncertain (faults sess) v
        (v.put .pairingTransactionState (.transaction { file with phase }))) K)
      (At faults sess v fun x => K x ∧ O.Acked expected x)
      (files (advancePairingTransaction phase file.pairingId))
      (fun _ => At faults sess
        (v.put .pairingTransactionState (.transaction { file with phase })) K) := by
  refine (desk_error (files_runs (advancePairingTransaction_runs hrec hversion hstep)
    (hK.and (.acked O expected)) nofun fun s hs => hallow s hs.2) fun s hs =>
      hs.mono (fun _ h => h) fun _ h => h.1).post ?_
  rintro _ s - ⟨hs, hsess, hk, -⟩
  exact ⟨hsess, hs, hk⟩

/-- **One round of recovery.** -/
theorem recoveryRound_runs {file : PairingTxnFile} (hrec : v.Records file)
    (hversion : file.version = 2) (hK : O.Lasts K) :
    DeskRuns O faults (Somewhere faults sess (fun _ => True) K) (At faults sess v K)
      (recoveryRound file) (fun _ => Somewhere faults sess (fun _ => True) K) := by
  have hF : ∀ {X : Directory → Prop} {K' : ν → Prop}, (∀ x, K' x → K x) → ∀ s,
      Somewhere faults sess X K' s → Somewhere faults sess (fun _ => True) K s :=
    fun h _ hs => hs.mono (fun _ _ => trivial) h
  unfold recoveryRound
  cases hphase : file.phase with
  | phoneCommitted => exact desk_pure hK fun s hs => hs.somewhere trivial
  | fullyActivated => exact desk_pure hK fun s hs => hs.somewhere trivial
  | prepared =>
    refine Triple.bind (desk_error (Triple.context (sendRecoveryTransition_runs trivial hK
      fun _ => ⟨file, hrec, rfl⟩)) (hF fun _ h => h)) fun _ => somewhere_runs fun w hw => ?_
    have hrec' := hw.records hrec
    exact (desk_error (advanceAcked_runs hrec' hversion hK (.commit rfl hrec' hversion hphase)
      fun _ h => h) (hF fun _ h => h)).post fun _ _ _ hs => hs.somewhere trivial
  | locallyActivated =>
    refine Triple.bind (desk_error (Triple.context (sendRecoveryTransition_runs trivial hK
      fun _ => ⟨file, hrec, rfl, hphase⟩)) (hF fun _ h => h)) fun _ =>
        somewhere_runs fun w hw => ?_
    have hrec' := hw.records hrec
    exact (desk_error (advanceAcked_runs hrec' hversion hK
      (.activateFully rfl hrec' hversion hphase) fun _ h => h) (hF fun _ h => h)).post
        fun _ _ _ hs => hs.somewhere trivial

/-- The loop ends with nothing recorded, or fails. -/
theorem reconcileLoop_runs (hK : O.Lasts K) (rounds : Nat) :
    DeskRuns O faults (Somewhere faults sess (fun _ => True) K)
      (Somewhere faults sess (fun _ => True) K) (reconcileLoop rounds)
      (fun _ => Somewhere faults sess NoRecord K) := by
  induction rounds with
  | zero => exact somewhere_runs fun w _ => desk_fail hK fun s hs => hs.somewhere trivial
  | succ rounds ih =>
    refine somewhere_runs fun w _ => ?_
    have hF : ∀ s, At faults sess w K s → Somewhere faults sess (fun _ => True) K s :=
      fun s hs => hs.somewhere trivial
    refine Triple.bind (pathExists_known _ hK) fun present => Triple.given fun hpresent => ?_
    cases present with
    | false =>
      have hnone : w.NoRecord :=
        Option.isNone_iff_eq_none.mp (Option.isSome_eq_false_iff.mp hpresent.symm)
      exact desk_pure hK fun s hs => hs.somewhere hnone
    | true =>
      refine Triple.bind (files_read_runs (readPairingTransaction_runs (fun _ => rfl) fun _ => rfl)
        hK hF) fun file => Triple.given fun hfile => ?_
      refine Triple.bind (recoveryRound_runs hfile.1 hfile.2 hK) fun _ => somewhere_runs fun u _ => ?_
      exact Triple.bind (files_at_runs recoverPairingTransaction_runs hK) fun _ => ih

/-- **`reconcile_pairing_transaction`** ends with nothing recorded, or
fails. -/
theorem reconcilePairingTransaction_runs (hK : O.Lasts K) :
    DeskRuns O faults (Somewhere faults sess (fun _ => True) K) (At faults sess v K)
      reconcilePairingTransaction (fun _ => Somewhere faults sess NoRecord K) :=
  Triple.bind (files_at_runs (Triple.context recoverPairingTransaction_runs) hK) fun _ =>
    reconcileLoop_runs hK 4

/-! ## A pairing -/

/-- The hello the secrets were taken from, but for its code. -/
def PairingSecrets.hello (secrets : PairingSecrets) (verificationCode : Nat) : PairingHello :=
  { pairingId := secrets.pairingId, approvalPublicKeyDer := secrets.approvalPublicKeyDer,
    phoneShare := secrets.phoneShare, verificationCode }

/-- **What is known of an exchange**: nothing was recorded over its
connection, and the secrets were offered there. -/
def Outside.Offers (O : Outside ν) (exchange : PairingExchange) (x : ν) : Prop :=
  O.Fresh exchange.conn exchange.secrets.phoneNodeId x ∧
    ∃ code, O.Offered exchange.conn (exchange.secrets.hello code) x

theorem Outside.Lasts.offers (O : Outside ν) (exchange : PairingExchange) :
    O.Lasts (O.Offers exchange) :=
  (Outside.Lasts.fresh O _ _).and
    ⟨fun hr ⟨code, h⟩ => ⟨code, O.offered_rely hr h⟩,
      fun he ⟨code, h⟩ => ⟨code, O.exec_offered he h⟩,
      fun _ ⟨code, h⟩ => ⟨code, O.note_offered h⟩⟩

/-- **`begin_pair_with_phone`.** -/
theorem beginPairWithPhone_runs (hK : O.Lasts K) (hF : ∀ s, At faults sess v K s → F s) :
    DeskRuns O faults F (At faults sess v K) beginPairWithPhone
      (fun exchange => At faults sess v fun x => K x ∧ O.Offers exchange x) := by
  have hfresh (r : Except String (Conn × Bytes32)) :
      O.Lasts fun x => ∀ a, r = .ok a → O.Fresh a.1 a.2 x :=
    .all fun a => .imp (.fresh O a.1 a.2)
  refine Triple.bind (ask_runs .acceptPhone
    (fun (r : Except String (Conn × Bytes32)) x => ∀ a, r = .ok a → O.Fresh a.1 a.2 x)
    hK hfresh trivial ?_) fun r => ?_
  · rintro s r y hi - hx a rfl
    exact O.accept hi hx
  refine Triple.bind (answer_runs (hK.and (hfresh r)) fun s hs =>
    hF s (hs.mono fun _ h => h.1)) fun ⟨conn, node⟩ => Triple.given fun hr => ?_
  have hKn : O.Lasts fun x => K x ∧ O.Fresh conn node x := hK.and (.fresh O conn node)
  have hFn : ∀ s, At faults sess v (fun x => K x ∧ O.Fresh conn node x) s → F s :=
    fun s hs => hF s (hs.mono fun _ h => h.1)
  have hoffer (m : FerusaMessage) : O.Lasts fun x => ∀ hello, m = .pairingHello hello →
      O.Offered conn hello x := .all fun hello => .imp (.offered O conn hello)
  refine Triple.bind (M := fun m => At faults sess v fun x => (K x ∧ O.Fresh conn node x) ∧
    ∀ hello, m = .pairingHello hello → O.Offered conn hello x) ?_ fun m => ?_
  · have hlast (r : Except String FerusaMessage) : O.Lasts fun x => ∀ hello,
        r = .ok (.pairingHello hello) → O.Offered conn hello x :=
      .all fun hello => .imp (.offered O conn hello)
    refine Triple.bind (M := fun (r : Except String FerusaMessage) => At faults sess v fun x =>
      (K x ∧ O.Fresh conn node x) ∧ ∀ hello, r = .ok (.pairingHello hello) →
        O.Offered conn hello x) ?_ fun r => ?_
    · refine ((ask_runs (.receive conn) (fun (r : Except String FerusaMessage) x => ∀ hello,
        r = .ok (.pairingHello hello) → O.Offered conn hello x) hKn hlast trivial ?_).pre
          fun s _ hs => hs.mono fun _ h => ⟨h.1, h.2 _ hr⟩)
      rintro s r y hi ⟨-, hf⟩ hx hello rfl
      exact O.hello hi hf hx
    · exact (answer_runs (hKn.and (hlast r)) fun s hs => hFn s (hs.mono fun _ h => h.1)).post
        fun m _ _ ⟨hm, hs⟩ => hs.mono fun _ h => ⟨h.1, fun hello he => h.2 hello (hm.trans (he ▸ rfl))⟩
  have hKm := hKn.and (hoffer m)
  have hFm : ∀ s, At faults sess v (fun x => (K x ∧ O.Fresh conn node x) ∧
      ∀ hello, m = .pairingHello hello → O.Offered conn hello x) s → F s :=
    fun s hs => hFn s (hs.mono fun _ h => h.1)
  cases m with
  | pairingHello hello =>
    refine Triple.bind (Triple.bind (Triple.bind (ask_any_runs hKm trivial) fun r =>
      (answer_runs hKm hFm).post fun _ _ _ hs => hs.2) fun _ =>
        (desk_ensure hKm fun s hs _ => hFm s hs).post fun _ _ _ hs => hs.2) fun _ => ?_
    exact desk_pure hKm fun s hs => hs.mono fun _ h =>
      ⟨h.1.1, h.1.2, hello.verificationCode, h.2 hello rfl⟩
  | _ => exact desk_fail hKm hFm

/-- **`confirm_pairing_ready`.** -/
theorem confirmPairingReady_runs [Crypto] {exchange : PairingExchange} {pairing : PairingData}
    (hF : ∀ s, At faults sess v (O.Offers exchange) s → F s) :
    DeskRuns O faults F (At faults sess v (O.Offers exchange))
      (confirmPairingReady exchange.conn pairing)
      (fun _ => At faults sess v fun x => O.Offers exchange x ∧
        O.Ready exchange.conn pairing.pairingId x) := by
  have hK := Outside.Lasts.offers O exchange
  refine Triple.bind (sendMessage_runs hK trivial hF) fun _ => ?_
  have hready (r : Except String FerusaMessage) : O.Lasts fun x => ∀ id signature,
      r = .ok (.pairingReady id signature) → O.Ready exchange.conn id x :=
    .all fun id => .all fun _ => .imp (.ready O exchange.conn id)
  refine Triple.bind (M := fun m => At faults sess v fun x => O.Offers exchange x ∧
    ∀ id signature, m = .pairingReady id signature → O.Ready exchange.conn id x) ?_ fun m => ?_
  · refine Triple.bind (ask_runs (.receive exchange.conn)
      (fun (r : Except String FerusaMessage) x => ∀ id signature,
        r = .ok (.pairingReady id signature) → O.Ready exchange.conn id x)
      hK hready trivial ?_) fun r => ?_
    · rintro s r y hi ⟨hf, -⟩ hx id signature rfl
      exact O.ready hi hf hx
    · exact (answer_runs (hK.and (hready r)) fun s hs => hF s (hs.mono fun _ h => h.1)).post
        fun m _ _ ⟨hm, hs⟩ => hs.mono fun _ h =>
          ⟨h.1, fun id signature he => h.2 id signature (hm.trans (he ▸ rfl))⟩
  have hKm : O.Lasts fun x => O.Offers exchange x ∧ ∀ id signature,
      m = .pairingReady id signature → O.Ready exchange.conn id x :=
    hK.and (.all fun id => .all fun _ => .imp (.ready O exchange.conn id))
  have hFm : ∀ s, At faults sess v (fun x => O.Offers exchange x ∧ ∀ id signature,
      m = .pairingReady id signature → O.Ready exchange.conn id x) s → F s :=
    fun s hs => hF s (hs.mono fun _ h => h.1)
  cases m with
  | pairingReady id signature =>
    refine Triple.bind (desk_ensure hKm fun s hs _ => hFm s hs) fun _ => Triple.given fun hid => ?_
    refine (desk_ensure hKm fun s hs _ => hFm s hs).post fun _ _ _ hs => hs.2.mono fun _ h =>
      ⟨h.1, hid ▸ h.2 id signature rfl⟩
  | _ => exact desk_fail hKm hFm

/-! ### The transaction -/

/-- **What a pairing writes next to the live files.** -/
structure Pending (v : Directory) (blob : EncryptedBlob) (data : PairingData) : Prop where
  vault : v .pendingVaultEnc = some (.vault blob)
  pairing : v .pendingPairingState = some (.pairing { version := 3, data })

/-- The vault and the pairing of one generation. -/
structure LivePair (v : Directory) (blob : EncryptedBlob) (data : PairingData) : Prop where
  vault : v .vaultEnc = some (.vault blob)
  pairing : v .pairingState = some (.pairing { version := 3, data })

theorem sameLive_of_agree {l : List FileName} (h : Agree l v w) (hv : .vaultEnc ∉ l)
    (hp : .pairingState ∉ l) : SameLive v w := ⟨h _ hv, h _ hp⟩

theorem without_noRecord (v : Directory) : (v.without transactionFiles).NoRecord :=
  if_pos (by decide)

theorem LivePair.sameLive {blob : EncryptedBlob} {data : PairingData} (h : LivePair v blob data)
    (hw : SameLive v w) : LivePair w blob data :=
  ⟨hw.1.trans h.vault, hw.2.trans h.pairing⟩

/-- **Promotion puts the pending files in place.** -/
theorem Pending.promoted {blob : EncryptedBlob} {data : PairingData} (h : Pending v blob data) :
    LivePair v.promoted blob data := by
  have hv : v.move .pendingVaultEnc .vaultEnc = _ := move_eq _ h.vault
  have hp : (v.move .pendingVaultEnc .vaultEnc) .pendingPairingState
      = some (.pairing { version := 3, data }) := by
    rw [hv]
    simpa using h.pairing
  refine ⟨?_, ?_⟩
  · rw [Directory.promoted, move_eq _ hp, put_apply, if_neg (by decide), drop_apply,
      if_neg (by decide), hv, put_apply, if_pos rfl]
  · rw [Directory.promoted, move_eq _ hp, put_apply, if_pos rfl]

theorem LivePair.put {blob : EncryptedBlob} {data : PairingData} (h : LivePair v blob data)
    {f : FileName} (hv : f ≠ .vaultEnc) (hp : f ≠ .pairingState) (contents : Content) :
    LivePair (v.put f contents) blob data := by
  refine ⟨?_, ?_⟩
  · rw [put_apply, if_neg hv.symm]
    exact h.vault
  · rw [put_apply, if_neg hp.symm]
    exact h.pairing

/-- **What an interrupted replacement leaves**: nothing replaced, the
transaction recorded, or everything replaced and a failure since. -/
def Broken (faults : Directory → Prop) (v : Directory) (blob : EncryptedBlob)
    (data : PairingData) (w : Directory) : Prop :=
  SameLive v w ∨ ¬ w.NoRecord ∨ LivePair w blob data ∧ faults w

/-- **`write_pairing_transaction_prepared`**, over a connection on which
the generation was offered and the phone has shown its key. -/
theorem prepare_runs {exchange : PairingExchange} {blob : EncryptedBlob} {data : PairingData}
    (htxn : v.NoRecord) (hpending : Pending v blob data)
    (hid : data.pairingId = exchange.secrets.pairingId)
    (hkey : data.approvalPublicKeyDer = exchange.secrets.approvalPublicKeyDer)
    (hnode : data.phoneNodeId = exchange.secrets.phoneNodeId)
    (hshare : blob.key.phoneShare = exchange.secrets.phoneShare) :
    DeskRuns O faults (Somewhere faults sess (Agree preparedFiles v) fun _ => True)
      (At faults sess v fun x => O.Offers exchange x ∧ O.Ready exchange.conn data.pairingId x)
      (files (writePairingTransactionPrepared data.pairingId))
      (fun _ => Somewhere faults sess (fun w => Agree preparedFiles v w ∧
        ∃ file, w.Records file ∧ file.version = 2 ∧ file.phase = .prepared ∧
          file.pairingId = data.pairingId) fun _ => True) := by
  have hrun : Runs (faults sess) (.prepare blob data) _ _ _ _ :=
    writePairingTransactionPrepared_runs rfl htxn hpending.vault hpending.pairing
  refine (files_hoist (G := fun s =>
    ((∃ code, O.Offered exchange.conn (exchange.secrets.hello code) s.out) ∧
      O.Ready exchange.conn data.pairingId s.out) ∧
    (s.dir.NoRecord ∧ O.Fresh exchange.conn exchange.secrets.phoneNodeId s.out ∨
      ∃ file, s.dir.Records file ∧ file.phase = .prepared)) hrun ?_ ?_).conseq ?_ ?_ ?_
  · rintro s s' ⟨⟨⟨code, ho⟩, hr⟩, hd⟩ hdesk hrely
    refine ⟨⟨⟨code, O.offered_rely hrely ho⟩, O.ready_rely hrely hr⟩, ?_⟩
    rw [World.dir, hdesk]
    exact hd.imp (And.imp id (O.fresh_rely hrely)) id
  · rintro s f hsess ⟨⟨⟨code, ho⟩, hr⟩, hd⟩ hf
    have hr' := hr
    rw [hid] at hr'
    have hallow : O.Allows faults s (.prepare blob data) := fun hnone => by
      obtain ⟨-, hfresh⟩ | ⟨file, hrec, -⟩ := hd
      · exact ⟨_, _, exchange.secrets.hello code, hfresh, ho, hr', hid, hkey, hnode, hshare⟩
      · exact absurd hnone hrec.not_noRecord
    refine ⟨.files (hsess ▸ hf) hallow, ⟨⟨code, O.note_offered ho⟩, O.note_ready hr⟩, ?_⟩
    have hd' : s.dir.NoRecord ∨ ∃ file, s.dir.Records file ∧ file.phase = .prepared :=
      hd.imp And.left id
    obtain he | hstep := hf.named
    · rw [World.dir, he]
      exact hd.imp (And.imp id (O.note_fresh fun h => he.symm ▸ h)) id
    · obtain ⟨hback, hnext⟩ := hstep.prepared nofun hd'
      refine hnext.imp (fun h => ⟨h, O.note_fresh (fun _ => h) ?_⟩) id
      exact hd.elim And.right fun ⟨_, hrec, _⟩ => absurd (hback h) hrec.not_noRecord
  · rintro s - ⟨hsess, hs, ⟨hfresh, hoffer⟩, hready⟩
    have hnone : s.dir.NoRecord := by
      rw [World.dir, hs.1]
      exact htxn
    exact ⟨hs, hsess, ⟨hoffer, hready⟩, .inl ⟨hnone, hfresh⟩⟩
  · rintro _ s - ⟨⟨w, hw, hs⟩, hsess, -⟩
    exact ⟨w, hw, hsess, hs, trivial⟩
  · rintro _ s - ⟨⟨w, hw, hs⟩, hsess, -⟩
    exact ⟨w, hw.1, hsess, hs, trivial⟩

/-- `await_pairing_completion`. -/
theorem awaitPairingCompletion_runs {conn : Conn} (hK : O.Lasts K)
    (hF : ∀ s, At faults sess v K s → F s) :
    DeskRuns O faults F (At faults sess v K) (awaitPairingCompletion conn)
      (fun _ => At faults sess v K) := by
  refine Triple.bind (ask_any_runs hK trivial) fun r => ?_
  refine Triple.bind (answer_runs hK hF) fun _ => Triple.given fun _ => ?_
  refine Triple.bind (ask_any_runs hK trivial) fun r => ?_
  refine Triple.bind (answer_runs hK hF) fun _ => Triple.given fun _ => ?_
  exact (desk_ensure hK fun s hs _ => hF s hs).post fun _ _ _ hs => hs.2

/-- A place where the transaction is recorded. -/
theorem At.recorded {X : Directory → Prop} {file : PairingTxnFile} {s : World ν}
    (h : At faults sess v K s) (hrec : v.Records file) (hX : ∀ w, ¬ w.NoRecord → X w) :
    Somewhere faults sess X (fun _ => True) s :=
  (h.mono fun _ _ => trivial).somewhere (hX v hrec.not_noRecord)

/-- The steps from the activation on the phone, the files being in
place. -/
theorem activateOnPhone_runs {conn : Conn} {file : PairingTxnFile} {blob : EncryptedBlob}
    {data : PairingData} (hrec : v.Records file) (hversion : file.version = 2)
    (hphase : file.phase = .locallyActivated) (hlive : LivePair v blob data) :
    DeskRuns O faults
      (Somewhere faults sess (fun w => ¬ w.NoRecord ∨ LivePair w blob data ∧ faults sess w)
        fun _ => True)
      (At faults sess v fun _ => True)
      (do
        sendPairingTransition conn (.pairingActivate file.pairingId)
          (.pairingActivateAck file.pairingId) "pairing activation"
        awaitPairingCompletion conn
        files ((writePairingTransactionFullyActivated file.pairingId).context
          "mark fully activated pairing")
        files (recoverPairingTransaction.context "clean fully activated pairing transaction"))
      (fun _ => Somewhere faults sess (fun w => w.NoRecord ∧ LivePair w blob data)
        fun _ => True) := by
  simp only [files_context]
  have hK := Outside.Lasts.nothing O
  have hacked := Outside.Lasts.acked O (.pairingActivateAck file.pairingId)
  refine Triple.bind (sendPairingTransition_runs trivial hK ⟨file, hrec, rfl, hphase⟩
    fun s hs => hs.recorded hrec fun _ h => .inl h) fun _ => ?_
  refine Triple.bind (awaitPairingCompletion_runs (hK.and hacked)
    fun s hs => hs.recorded hrec fun _ h => .inl h) fun _ => ?_
  have hrec' := Directory.put_records v { file with phase := .fullyActivated }
  have hlive' := hlive.put (f := .pairingTransactionState) (by decide) (by decide)
    (.transaction { file with phase := .fullyActivated })
  refine Triple.bind (desk_error (Triple.context (advanceAcked_runs hrec hversion hK
    (.activateFully rfl hrec hversion hphase) fun _ h => h)) ?_) fun _ => ?_
  · rintro s ⟨u, ⟨rfl | rfl, -⟩, hs⟩
    · exact hs.recorded hrec fun _ h => .inl h
    · exact hs.recorded hrec' fun _ h => .inl h
  refine (desk_error (Triple.context (files_recover_runs
    (recoverPairingTransaction_finished_runs hrec' hversion rfl) hK)) ?_).post ?_
  · rintro s ⟨u, ⟨hpart, hf⟩, hs⟩
    exact hs.somewhere
      (.inr ⟨hlive'.sameLive (sameLive_of_agree hpart.agree (by decide) (by decide)), hf⟩)
  · rintro _ s - ⟨hs, hsess, -⟩
    refine ⟨_, ⟨without_noRecord _, hlive'.sameLive ?_⟩, hsess, hs, trivial⟩
    exact sameLive_of_agree (without_agree _ _) (by decide) (by decide)

/-- **`commit_and_activate_pairing`** replaces the vault and the pairing
and forgets the transaction, or leaves what recovery goes on from. -/
theorem commitAndActivatePairing_runs {exchange : PairingExchange} {blob : EncryptedBlob}
    {data : PairingData} (htxn : v.NoRecord) (hpending : Pending v blob data)
    (hid : data.pairingId = exchange.secrets.pairingId)
    (hkey : data.approvalPublicKeyDer = exchange.secrets.approvalPublicKeyDer)
    (hnode : data.phoneNodeId = exchange.secrets.phoneNodeId)
    (hshare : blob.key.phoneShare = exchange.secrets.phoneShare) :
    DeskRuns O faults
      (Somewhere faults sess (Broken (faults sess) v blob data) fun _ => True)
      (At faults sess v fun x => O.Offers exchange x ∧ O.Ready exchange.conn data.pairingId x)
      (commitAndActivatePairing exchange.conn data.pairingId)
      (fun _ => Somewhere faults sess (fun w => w.NoRecord ∧ LivePair w blob data)
        fun _ => True) := by
  have hK := Outside.Lasts.nothing O
  unfold commitAndActivatePairing
  rw [files_context]
  refine Triple.bind (desk_error (Triple.context (prepare_runs htxn hpending hid hkey hnode hshare))
    fun s hs => hs.mono (fun w hw => .inl (sameLive_of_agree hw (by decide) (by decide)))
      fun _ _ => trivial) fun _ => somewhere_runs fun w hw => ?_
  obtain ⟨hagree, file, hrec, hversion, hphase, hfile⟩ := hw
  rw [← hfile]
  refine Triple.bind (sendPairingTransition_runs trivial hK ⟨file, hrec, rfl⟩
    fun s hs => hs.recorded hrec fun _ h => .inr (.inl h)) fun _ => ?_
  -- The phone has committed.
  have hrec' := Directory.put_records w { file with phase := .phoneCommitted }
  rw [files_context]
  refine Triple.bind (desk_error (Triple.context (advanceAcked_runs hrec hversion hK
    (.commit rfl hrec hversion hphase) fun _ h => h)) ?_) fun _ => ?_
  · rintro s ⟨u, ⟨rfl | rfl, -⟩, hs⟩
    · exact hs.recorded hrec fun _ h => .inr (.inl h)
    · exact hs.recorded hrec' fun _ h => .inr (.inl h)
  have hpending' : Pending (w.put .pairingTransactionState
      (.transaction { file with phase := .phoneCommitted })) blob data := by
    refine ⟨?_, ?_⟩
    · rw [put_apply, if_neg (by decide)]
      exact (hagree _ (by decide)).trans hpending.vault
    · rw [put_apply, if_neg (by decide)]
      exact (hagree _ (by decide)).trans hpending.pairing
  rw [files_context]
  refine Triple.bind (desk_error (Triple.context (files_recover_runs
    (recoverPairingTransaction_committed_runs hrec' hversion rfl) hK)) ?_) fun _ => ?_
  · exact fun s hs => hs.mono (fun _ h => .inr (.inl h.2)) fun _ _ => trivial
  -- The pending files are in place.
  exact ((desk_error (activateOnPhone_runs
    (Directory.put_records _ { file with phase := .locallyActivated }) hversion rfl
    (hpending'.promoted.put (by decide) (by decide) _))
      fun s hs => hs.mono (fun _ h => .inr h) fun _ _ => trivial).pre
      fun s _ ⟨⟨_, hs⟩, hsess, _⟩ => ⟨hsess, hs, trivial⟩)

end Desktop

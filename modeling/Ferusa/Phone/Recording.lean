import Ferusa.Phone.Resuming

/-!
# Whose pairing it is

A pairing is set up from what the desktop shows, and the node of the desktop
is part of that. A setup writes it into the record of the pairing, and by
the record it is decided later whose word counts. So the word that resumes a
pairing is that of the node that was shown, however much later it is given,
and whatever else was set up in between.
-/

namespace Phone

open Prog AppProg Discipline

/-- **A record that is saved** is of what was shown to the setup. -/
def RecordsShown (op : AppOp) (c : AppCmd) : Prop :=
  ∀ id generation, c = .store (.save (.generation id) generation) →
    ∃ payload, op = .setupComplete payload ∧ generation.pairingId = id ∧
      checkSetupPayload payload = .ok generation.cliNodeId

variable [Crypto] {Z : Setting} {t : Nat} {op : AppOp} {l : List AppAct}

/-- **The discipline of the records.** -/
def recordingDiscipline (Z : Setting) : Discipline (appThreads Z) where
  may _ op _ e := RecordsShown op e.command
  ends _ _ _ _ := True
  rely := (resumingDiscipline Z).rely
  rely_refl := (resumingDiscipline Z).rely_refl
  rely_trans := (resumingDiscipline Z).rely_trans

/-! ## What saves no record -/

section

variable {ε α : Type}

omit [Crypto] in
theorem StoresOnly.recordsShown {pointers : List Pointer} {c : AppCmd} (hc : StoresOnly pointers c)
    (h : .pending ∉ pointers) : RecordsShown op c :=
  fun _ _ heq => absurd ((hc _ heq).records _ _ rfl) h

omit [Crypto] in
theorem recordsShown_of_stores (pointers : List Pointer) {p : Prog AppCmd.Reply ε α}
    (hp : p.Only (StoresOnly pointers)) (h : .pending ∉ pointers) : p.Only (RecordsShown op) :=
  Only.mono hp fun _ hc => hc.recordsShown h

omit [Crypto] in
theorem recordsShown_of_modest (pointers : List Pointer) {p : Prog AppCmd.Reply ε α}
    (hp : p.Only (Modest pointers)) (h : .pending ∉ pointers) : p.Only (RecordsShown op) :=
  recordsShown_of_stores pointers (stores_of_modest hp) h

end

/-! ## The record of a setup -/

/-- **What is stored of a pairing** has its id and its node. -/
theorem storePendingPairingGeneration_records (id : Uuid) (approvalAlias : ApprovalAlias)
    (der : Bytes) (share : Bytes32) (pin4Hash pin6Hash : String) (cliNodeId : Bytes32) :
    (storePendingPairingGeneration id approvalAlias der share pin4Hash pin6Hash cliNodeId).Only
      fun c => ∀ id' generation, c = .save (.generation id') generation →
        generation.pairingId = id' ∧ generation.cliNodeId = cliNodeId := by
  have hnone : ∀ {α : Type} {q : StoreProg α}, q.Only (PointsOnly resumes) → q.Only fun c =>
      ∀ id' generation, c = .save (.generation id') generation →
        generation.pairingId = id' ∧ generation.cliNodeId = cliNodeId := fun hq =>
    Only.mono hq fun _ hc id' generation heq => absurd (hc.records id' generation heq) (by decide)
  refine Only.bind (hnone (points_loadGenerationId _)) fun _ =>
    Only.ite trivial (Only.ite trivial ?_)
  refine Only.bind Only.ofExcept fun _ => Only.bind ?_ fun _ => Only.bind
    (hnone (Only.mapError (points_loadMetadataValidatedGeneration _))) fun _ => ?_
  -- two commands save: the first the record, the second the pointer to it
  · refine Only.mapError (Only.bind (Only.perform fun id' generation heq => ?_) fun _ =>
      hnone points_fallible)
    obtain ⟨hk, hv⟩ := StoreCmd.save.inj heq
    obtain rfl := Key.generation.inj hk
    obtain rfl := eq_of_heq hv
    exact ⟨rfl, rfl⟩
  · refine Only.mapError (Only.bind (Only.perform fun id' generation heq => ?_) fun _ =>
      hnone points_fallible)
    exact nomatch (StoreCmd.save.inj heq).1

/-- **A setup that stages its pairing** records the node that it was shown. -/
theorem stagePairing_records {payload : SetupPayload} (pin4Hash pin6Hash : String)
    {cliNodeId : Bytes32} (hnode : checkSetupPayload payload = .ok cliNodeId) :
    (stagePairing pin4Hash pin6Hash cliNodeId).Only (RecordsShown (.setupComplete payload)) := by
  have hmodest : ∀ {ε α : Type} {p : Prog AppCmd.Reply ε α}, p.Only (Modest [.staging]) →
      p.Only (RecordsShown (.setupComplete payload)) :=
    fun hp => recordsShown_of_modest _ hp (by decide)
  refine Only.bind (Only.perform nofun) fun id => Only.bind (hmodest (modest_storage
    (points_beginPendingPairing (List.mem_singleton_self _) id))) fun _ =>
      Only.bind (hmodest modest_mapErr) fun _ => Only.bind (hmodest (Only.attempt (modest_hoist
        (points_generateApprovalKey _)))) fun generated => ?_
  cases generated with
  | error e => exact hmodest (modest_abandonPairing _ _)
  | ok der =>
    refine Only.bind (Only.perform nofun) fun share => Only.bind (Only.attempt (Only.hoist
      (Only.mono (Only.bind (Only.perform nofun) fun _ => Only.bind (Only.attempt
        (storePendingPairingGeneration_records id _ der share pin4Hash pin6Hash cliNodeId)) fun _ =>
          Only.bind (Only.perform nofun) fun _ => Only.ofExcept)
        fun c hc id' generation heq => ?_))) fun stored => ?_
    · obtain ⟨hid, hrecorded⟩ := hc id' generation (AppCmd.store.inj heq)
      exact ⟨payload, rfl, hid, hrecorded ▸ hnode⟩
    · cases stored with
      | error e => exact hmodest (modest_abandonPairing _ _)
      | ok u => trivial

/-- **A setup** records the node that it was shown. -/
theorem setupComplete_records (payload : SetupPayload) :
    (setupComplete payload).Only (RecordsShown (.setupComplete payload)) := by
  have hstores : ∀ {ε α : Type} {p : Prog AppCmd.Reply ε α}, p.Only (StoresOnly resumes) →
      p.Only (RecordsShown (.setupComplete payload)) :=
    fun hp => recordsShown_of_stores _ hp (by decide)
  refine Only.bind (hstores stores_requireReplacementAuthorization) fun _ => ?_
  -- a payload that is refused ends the setup, so the node is that of the payload
  cases hnode : checkSetupPayload payload with
  | error e => trivial
  | ok cliNodeId =>
    rw [Prog.ofExcept_ok, Prog.ret_bind]
    refine Only.bind (hstores (stores_of_stays consumeSetupPairingCode_stays rfl)) fun _ => ?_
    refine Only.bind (hstores (stores_of_stays (hashSetupPin_stays _) rfl)) fun _ =>
      Only.bind (hstores (stores_of_stays (hashSetupPin_stays _) rfl)) fun _ =>
        Only.bind (hstores (stores_of_stays acquireEndpoint_stays rfl)) fun _ => ?_
    refine Only.bind (stagePairing_records _ _ hnode) fun staged => hstores (Only.bind
      (stores_of_modest (modest_signReady staged)) fun _ => Only.bind (Only.attempt
        (stores_of_modest (modest_pairWithCli _ _ _))) fun _ => ?_)
    refine Only.bind (stores_of_modest modest_mapErr) fun _ =>
      Only.bind (stores_of_modest modest_loadSessionSecrets) fun _ => ?_
    exact Only.bind (Only.perform nofun) fun _ => Only.bind (Only.perform nofun) fun _ =>
      stores_of_stays AppState.lock_stays rfl

/-- **The programs keep the discipline.** -/
theorem recordingDiscipline_valid (Z : Setting) : (recordingDiscipline Z).Valid where
  keeps t op := by
    have honly : op.program.Only (RecordsShown op) := by
      by_cases hs : ∃ payload, op = .setupComplete payload
      · obtain ⟨payload, rfl⟩ := hs
        exact setupComplete_records payload
      · exact recordsShown_of_stores resumes (AppOp.program_stores (fun payload h =>
          hs ⟨payload, h⟩) fun _ _ _ => List.Subset.refl _) (by decide)
    exact (Keeps.only (D := recordingDiscipline Z) honly fun _ _ _ _ _ hc _ => hc).mono
      fun _ _ _ => trivial
  put _ _ _ := trivial
  start _ := trivial
  env _ := trivial

/-! ## What is recorded -/

/-- The record that is stored was there at the start, or an act has saved it. -/
def RecordedSince (start : Secrets) (l : List AppAct) (s : App) : Prop :=
  ∀ id generation, s.store.secrets.gen id = some generation → start.gen id = some generation ∨
    ∃ e early later, l = later ++ e :: early ∧
      e.command = .store (.save (.generation id) generation)

/-- **One more act.** -/
theorem RecordedSince.put {start : Secrets} {c : AppCmd} {r : c.Reply} {s s' : App}
    (h : RecordedSince start l s) (hx : App.Exec t c s r s') :
    RecordedSince start (⟨t, c, r, s, s'⟩ :: l) s' := by
  intro id generation hid
  have hbefore : s.store.secrets.gen id = some generation → start.gen id = some generation ∨
      ∃ e early later, ⟨t, c, r, s, s'⟩ :: l = later ++ e :: early ∧
        e.command = .store (.save (.generation id) generation) := by
    refine fun hs => (h id generation hs).imp_right ?_
    rintro ⟨e, early, later, rfl, he⟩
    exact ⟨e, early, _ :: later, rfl, he⟩
  by_cases hc : ∃ c', c = .store c'
  · obtain ⟨c', rfl⟩ := hc
    obtain ⟨o, st, ho, rfl⟩ := App.exec_store.mp hx
    rcases key_exec ho (k := .generation id) hid with hs | rfl
    · exact hbefore hs
    · exact .inr ⟨_, l, [], rfl, rfl⟩
  · -- no other command touches the store
    rw [hx.aside.store fun c' h => hc ⟨c', h⟩] at hid
    exact hbefore hid

/-- **Before each act**, every record was saved. -/
theorem recorded_since {store : Store} {now epoch : Nat} {clock : ClockSnapshot}
    {usedUuids : List Uuid} {p : (appThreads .any).Running}
    (hp : (appThreads .any).Reaches (App.boot store now epoch clock usedUuids) p) :
    ∀ e early, p.state.Happened e early → RecordedSince store.secrets early e.before := by
  refine (recordingDiscipline_valid .any).chronicle (fun _ _ h => .inl h)
    (fun h hx _ => h.put hx) (fun h hs => ?_) (fun h he => ?_) (fun h hc => ?_) hp
  · obtain ⟨spawned, rfl⟩ := AppOp.Starts.spawned hs
    exact h
  · obtain ⟨he, -⟩ := he
    cases he <;> exact h
  · obtain ⟨⟨now, epoch, clock, rfl, -⟩, -⟩ := hc
    exact h

/-! ## Whose word it is -/

/-- **A setup was shown the node**, and has recorded it with the generation. -/
def ShownAtSetup (w : AppLog) (id : Uuid) (node : Bytes32) (l : List AppAct) : Prop :=
  ∃ s before payload, w.Happened s before ∧ s ∈ l ∧ SavesRecord id node s ∧
    w.ops s.thread = some (.setupComplete payload) ∧ checkSetupPayload payload = .ok node

/-- **Only a setup writes a record**, that of the generation it is for, with the
node that it was shown. -/
theorem save_shown {store : Store} {now epoch : Nat} {clock : ClockSnapshot}
    {usedUuids : List Uuid} {p : (appThreads .any).Running}
    (hp : (appThreads .any).Reaches (App.boot store now epoch clock usedUuids) p) {s : AppAct}
    {before : List AppAct} (hs : p.state.Happened s before) {id : Uuid}
    {generation : PairingGeneration}
    (hsaves : s.command = .store (.save (.generation id) generation)) :
    ∃ payload, p.state.ops s.thread = some (.setupComplete payload) ∧
      generation.pairingId = id ∧ checkSetupPayload payload = .ok generation.cliNodeId := by
  obtain ⟨op, hop, -, hmay⟩ := (recordingDiscipline_valid .any).followed hp s before hs
  obtain ⟨payload, rfl, hid, hshown⟩ := hmay id generation hsaves
  exact ⟨payload, hop, hid, hshown⟩

/-- **A record that is saved** is of what was shown. -/
theorem saved_shown {store : Store} {now epoch : Nat} {clock : ClockSnapshot}
    {usedUuids : List Uuid} {p : (appThreads .any).Running}
    (hp : (appThreads .any).Reaches (App.boot store now epoch clock usedUuids) p) {id : Uuid}
    {node : Bytes32} {s : AppAct} {before : List AppAct} (hs : p.state.Happened s before)
    (hsaves : SavesRecord id node s) : ∃ payload,
      p.state.ops s.thread = some (.setupComplete payload) ∧
        checkSetupPayload payload = .ok node := by
  obtain ⟨generation, hcommand, -, hnode⟩ := hsaves
  obtain ⟨payload, hop, -, hshown⟩ := save_shown hp hs hcommand
  exact ⟨payload, hop, hnode ▸ hshown⟩

/-- **A record that is found** is of what was shown, unless it was there at the
start. -/
theorem found_shown {store : Store} {now epoch : Nat} {clock : ClockSnapshot}
    {usedUuids : List Uuid} {p : (appThreads .any).Running}
    (hp : (appThreads .any).Reaches (App.boot store now epoch clock usedUuids) p) {id : Uuid}
    {node : Bytes32} {d : AppAct} {early : List AppAct} (hd : p.state.Happened d early)
    (hfinds : FindsRecord id node d) (hnew : store.secrets.gen id = none) :
    ShownAtSetup p.state id node early := by
  obtain ⟨generation, hholds, rfl, rfl⟩ := hfinds
  rcases recorded_since hp d early hd generation.pairingId generation hholds with
    hstart | ⟨s, before, later, rfl, hcommand⟩
  · cases hnew.symm.trans hstart
  · obtain ⟨last, hacts⟩ := hd
    have hhappened : p.state.Happened s before := ⟨last ++ d :: later, by simp [hacts]⟩
    have hsaves : SavesRecord generation.pairingId generation.cliNodeId s :=
      ⟨generation, hcommand, rfl, rfl⟩
    obtain ⟨payload, hop, hshown⟩ := saved_shown hp hhappened hsaves
    exact ⟨s, before, payload, hhappened, by simp, hsaves, hop, hshown⟩

omit [Crypto] in
theorem ShownAtSetup.mono {w : AppLog} {id : Uuid} {node : Bytes32} {l l' : List AppAct}
    (h : ShownAtSetup w id node l) (hl : l ⊆ l') : ShownAtSetup w id node l' := by
  obtain ⟨s, before, payload, hs, hmem, hrest⟩ := h
  exact ⟨s, before, payload, hs, hl hmem, hrest⟩

/-- **The word of a node**, to the thread that goes on at it: the thread serves a
connection that has the node at its other end, or it is a setup, and has
opened a connection to the node that it had recorded. -/
def HeardFrom (w : AppLog) (node : Bytes32) (id : Uuid) (message : FerusaMessage) (e : AppAct)
    (early : List AppAct) : Prop :=
  ∃ conn : Connection, conn.remoteId = node ∧
    ((∃ streams, w.ops e.thread = some (.serve conn streams) ∧
        SentByPeer conn id message (early.filter fun d => d.thread = e.thread)) ∨
      (∃ payload, w.ops e.thread = some (.setupComplete payload)) ∧
        ∃ stream, Preceded [ReadsMessage stream message, OpensStream conn stream, Connects conn,
          SavesRecord id conn.remoteId] (early.filter fun d => d.thread = e.thread))

/-- **The word of the desktop** is the word of the node that a setup was shown. -/
theorem AtWord.shown {store : Store} {now epoch : Nat} {clock : ClockSnapshot}
    {usedUuids : List Uuid} {p : (appThreads .any).Running}
    (hp : (appThreads .any).Reaches (App.boot store now epoch clock usedUuids) p) {id : Uuid}
    {message : FerusaMessage} {a : AppAct} {early : List AppAct} (ha : p.state.Happened a early)
    (h : AtWord p.state id message a early) (hnew : store.secrets.gen id = none) :
    ∃ node, ShownAtSetup p.state id node early ∧ HeardFrom p.state node id message a early := by
  obtain ⟨last, hacts⟩ := ha
  obtain ⟨op, hop, hsent⟩ := h
  rcases hsent with ⟨conn, streams, rfl, hpeer⟩ | ⟨⟨setup, rfl⟩, conn, stream, hpairing⟩
  · -- over a connection of its own: its record was found, and so was saved
    have hheard := hpeer
    obtain ⟨stream, m, f, before, hsplit, -, -, d, hd, hfinds⟩ := hpeer
    have hown : d ∈ early.filter fun d => d.thread = a.thread := by
      rw [hsplit]
      exact List.mem_append_left _ hd
    obtain ⟨later, rest, rfl⟩ := List.append_of_mem (List.mem_of_mem_filter hown)
    have hhappened : p.state.Happened d rest := ⟨last ++ a :: later, by simp [hacts]⟩
    have hshown := found_shown hp hhappened hfinds hnew
    exact ⟨conn.remoteId, hshown.mono fun x hx => by simp [hx], conn, rfl,
      .inl ⟨streams, hop, hheard⟩⟩
  · -- over the stream of the setup: the setup has saved the record itself
    obtain ⟨s, hs, hsaves⟩ : ∃ s ∈ early.filter fun d => d.thread = a.thread,
        SavesRecord id conn.remoteId s := hpairing.mem (by simp)
    obtain ⟨later, rest, rfl⟩ := List.append_of_mem (List.mem_of_mem_filter hs)
    have hhappened : p.state.Happened s rest := ⟨last ++ a :: later, by simp [hacts]⟩
    obtain ⟨payload, hsetup, hshown⟩ := saved_shown hp hhappened hsaves
    exact ⟨conn.remoteId, ⟨s, rest, payload, hhappened, by simp, hsaves, hsetup, hshown⟩, conn, rfl,
      .inr ⟨⟨setup, hop⟩, stream, hpairing⟩⟩

/-- **A pairing is resumed by the node that was shown.** Whatever is done, by
however many threads, suspended wherever, and whenever the app is killed:
a record is written by a setup only, with the id it is stored under and the
node that the setup was shown. Where an act makes a generation the active one
that had no record at the start, a setup has recorded the generation,
earlier, and the word to activate came from the node that it was shown, to
the thread that acts; and so it was when the generation was committed,
unless it was so at the start. -/
theorem resumed_by_shown_node {store : Store} {now epoch : Nat} {clock : ClockSnapshot}
    {usedUuids : List Uuid} {p : (appThreads .any).Running}
    (hp : (appThreads .any).Reaches (App.boot store now epoch clock usedUuids) p) :
    (∀ s before id generation, p.state.Happened s before →
      s.command = .store (.save (.generation id) generation) →
      ∃ payload, p.state.ops s.thread = some (.setupComplete payload) ∧
        generation.pairingId = id ∧ checkSetupPayload payload = .ok generation.cliNodeId) ∧
    ∀ id a early, p.state.Happened a early → Turns .active id a → store.secrets.gen id = none →
      (∃ node, ShownAtSetup p.state id node early ∧
        HeardFrom p.state node id (.pairingActivate id) a early) ∧
      (store.secrets.ptr .committed ≠ some id →
        ∃ c before, p.state.Happened c before ∧ c ∈ early ∧ Turns .committed id c ∧
          ∃ node, ShownAtSetup p.state id node before ∧
            HeardFrom p.state node id (.pairingCommit id) c before) := by
  refine ⟨fun s before id generation hs => save_shown hp hs, fun id a early ha hactive hnew => ?_⟩
  obtain ⟨op, hop, -, hmay⟩ := (resumingDiscipline_valid .any).followed hp a early ha
  have hword : AtWord p.state id (.pairingActivate id) a early :=
    ⟨op, hop, hmay.activates id hactive.saves⟩
  refine ⟨hword.shown hp ha hnew, fun hcommitted => ?_⟩
  obtain ⟨c, before, hc, hmem, hturns⟩ := hactive.committed_before hp ha hcommitted
  obtain ⟨op', hop', -, hmay'⟩ := (resumingDiscipline_valid .any).followed hp c before hc
  have hword' : AtWord p.state id (.pairingCommit id) c before :=
    ⟨op', hop', hmay'.commits id hturns.saves⟩
  exact ⟨c, before, hc, hmem, hturns, hword'.shown hp hc hnew⟩

omit [Crypto] in
/-- The second pairing is committed and resumed by the node that its setup was
shown. -/
theorem resumed_by_shown_node_second : ∃ p : (@appThreads Crypto.plain .any).Running,
    ∃ a early, p.state.Happened a early ∧ Turns .active 2 a ∧
      (∃ node, ShownAtSetup p.state 2 node early ∧
        HeardFrom p.state node 2 (.pairingActivate 2) a early) ∧
      ∃ c before, p.state.Happened c before ∧ c ∈ early ∧ Turns .committed 2 c ∧
        ∃ node, ShownAtSetup p.state 2 node before ∧
          HeardFrom p.state node 2 (.pairingCommit 2) c before := by
  obtain ⟨store, p, hp, hcommitted, hgen, a, early, ha, hactive⟩ := replacement_turns
  obtain ⟨hactivate, hcommit⟩ :=
    (@resumed_by_shown_node Crypto.plain _ _ _ _ _ _ hp).2 2 a early ha hactive hgen
  exact ⟨p, a, early, ha, hactive, hactivate, hcommit hcommitted⟩

end Phone

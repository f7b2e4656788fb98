import Ferusa.Phone.Replacing

/-!
# At whose word a pairing is resumed

A pairing that was staged is committed, and then made the active one, when
its desktop says so: over the stream that the phone has opened itself, or
over any connection later, if something was lost on the way. Anybody may
connect and say so, with any id.

What a connection has been let do before does not count. A commit and an
activation are each checked against the record of the generation that they
name, after they were read.
-/

namespace Phone

open Prog AppProg Discipline

/-! ## What is said, and by whom -/

/-- **The frame brings the message.** -/
def BringsMessage (stream : Stream) (message : FerusaMessage) (e : AppAct) : Prop :=
  ∃ t s s', e = ⟨t, .ask (.readToEnd stream), .ok (.ok message), s, s'⟩

/-- The message is read from the stream of a pairing. -/
def ReadsMessage (stream : Stream) (message : FerusaMessage) (e : AppAct) : Prop :=
  ∃ t s s', e = ⟨t, .ask (.readMessage stream), .ok message, s, s'⟩

/-- The stream is opened, on a connection. -/
def OpensStream (conn : Connection) (stream : Stream) (e : AppAct) : Prop :=
  ∃ t s s', e = ⟨t, .ask (.openBi conn), .ok stream, s, s'⟩

/-- The connection is to the node. -/
def Connects (conn : Connection) (e : AppAct) : Prop :=
  ∃ t s s', e = ⟨t, .ask (.connect conn.remoteId), .ok conn.number, s, s'⟩

/-- A record is found of the generation, with the node. -/
def FindsRecord (id : Uuid) (node : Bytes32) (e : AppAct) : Prop :=
  ∃ generation, HoldsRecord e generation ∧ generation.pairingId = id ∧ generation.cliNodeId = node

/-- A record of the generation is saved, with the node. -/
def SavesRecord (id : Uuid) (node : Bytes32) (e : AppAct) : Prop :=
  ∃ generation, e.command = .store (.save (.generation id) generation) ∧
    generation.pairingId = id ∧ generation.cliNodeId = node

/-- **The desktop has sent it, over a connection of its own**: since its frame was
read, and no other since, a record was found that names the node at the
other end. -/
def SentByPeer (conn : Connection) (id : Uuid) (message : FerusaMessage) (l : List AppAct) :
    Prop :=
  ∃ stream m f early, l = m ++ f :: early ∧ BringsMessage stream message f ∧
    (∀ b ∈ m, ¬ ReadsFrame b.command) ∧ ∃ d ∈ m, FindsRecord id conn.remoteId d

/-- **The desktop has sent it, over the stream of the pairing**: after the record
was saved with the node, the stream was opened on a connection to it. -/
def SentInPairing (id : Uuid) (message : FerusaMessage) (l : List AppAct) : Prop :=
  ∃ conn stream, Preceded [ReadsMessage stream message, OpensStream conn stream, Connects conn,
    SavesRecord id conn.remoteId] l

/-- **The word of the desktop.** -/
def SentByDesktop (op : AppOp) (id : Uuid) (message : FerusaMessage) (l : List AppAct) : Prop :=
  (∃ conn streams, op = .serve conn streams ∧ SentByPeer conn id message l) ∨
    (∃ payload, op = .setupComplete payload) ∧ SentInPairing id message l

/-- The pointer is saved. -/
def SavesPointer (p : Pointer) (id : Uuid) (e : AppAct) : Prop :=
  e.command = .store (.save (.pointer p) id)

/-- **What a thread may do** to resume a pairing. -/
structure ResumingMay (op : AppOp) (l : List AppAct) (e : AppAct) : Prop where
  commits : ∀ id, SavesPointer .committed id e → SentByDesktop op id (.pairingCommit id) l
  activates : ∀ id, SavesPointer .active id e → SentByDesktop op id (.pairingActivate id) l

variable [Crypto] {Z : Setting} {t : Nat} {op : AppOp} {l : List AppAct}

/-- **The discipline of what is resumed.** -/
def resumingDiscipline (Z : Setting) : Discipline (appThreads Z) where
  may _ := ResumingMay
  ends _ _ _ _ := True
  rely _ _ _ := True
  rely_refl _ _ := trivial
  rely_trans _ _ := trivial

/-! ## What saves neither pointer -/

/-- **Of the pointers, none but these is saved**, whatever else is done. -/
def StoresOnly (pointers : List Pointer) (c : AppCmd) : Prop :=
  ∀ c', c = .store c' → PointsOnly pointers c'

/-- Neither the committed nor the active pointer is saved. -/
def Silent (c : AppCmd) : Prop := StoresOnly [.staging, .pending, .retiring] c

omit [Crypto] in
theorem ResumingMay.of_silent {e : AppAct} (h : Silent e.command) : ResumingMay op l e where
  commits id hid := absurd ((h _ hid).points .committed id rfl) (by decide)
  activates id hid := absurd ((h _ hid).points .active id rfl) (by decide)

/-- **What is silent** may run at any time. -/
theorem keeps_of_silent {ε α : Type} {p : Prog AppCmd.Reply ε α} (hp : p.Only Silent) :
    (resumingDiscipline Z).Keeps t op l p fun _ l' =>
      Keeps.Since (fun e : AppAct => Silent e.command) l l' :=
  Keeps.only (D := resumingDiscipline Z) hp fun _ _ _ _ _ hc _ => .of_silent hc

section

variable {ε α : Type} {pointers : List Pointer}

omit [Crypto] in
/-- What is modest saves no other pointer. -/
theorem stores_of_modest {p : Prog AppCmd.Reply ε α} (hp : p.Only (Modest pointers)) :
    p.Only (StoresOnly pointers) :=
  Only.mono hp fun _ h => h.points

omit [Crypto] in
theorem stores_of_stays {parts : List Part} {p : Prog AppCmd.Reply ε α} (hp : Stays parts p)
    (hs : parts.contains .store = false) : p.Only (StoresOnly pointers) := by
  refine Only.mono hp fun c hc c' heq => ?_
  subst heq
  constructor <;> rintro _ _ rfl <;>
    exact absurd (List.contains_iff_mem.mpr hc) (Bool.eq_false_iff.mp hs)

theorem stores_requireReplacementAuthorization :
    requireReplacementAuthorization.Only (StoresOnly pointers) := by
  refine Only.bind (stores_of_modest (modest_storage points_isSetupInStore)) fun _ => ?_
  refine stores_of_stays (show Stays [.cell, .authorization] _ from ?_) rfl
  refine Only.bind (stays_mapErr.mono rfl) fun persisted => Only.bind (stays_put rfl) fun _ => ?_
  refine Only.bind (Only.ite (stays_put rfl) Only.pure) fun _ => Only.ite (Only.bind ?_ fun _ =>
    Only.ite Only.pure Only.fail) Only.pure
  exact Only.bind (stays_put rfl) fun _ => Only.pure

omit [Crypto] in
theorem stores_verifyReplacementPin (kind : PinKind) (pin pinHash : String) :
    (verifyReplacementPin kind pin pinHash).Only (StoresOnly pointers) := by
  refine Only.bind (stores_of_modest (modest_verifyPinWithCooldown _ _ _)) fun outcome => ?_
  cases outcome with
  | verified => trivial
  | incorrect => trivial
  | cooldownStarted ms =>
    exact Only.bind (stores_of_stays expireSession_stays rfl) fun _ => trivial
  | cooldownActive ms => trivial

theorem stores_authorizePairingReplacement (pin4 pin6 : String) :
    (authorizePairingReplacement pin4 pin6).Only (StoresOnly pointers) := by
  refine Only.bind (stores_of_stays AppState.beginPairingReplacement_stays rfl) fun generation => ?_
  refine Only.bind Only.ofExcept fun _ => Only.bind Only.ofExcept fun _ => ?_
  refine Only.bind (stores_of_stays (refreshApprovalKeyAuth_stays _ _) rfl) fun _ => ?_
  refine Only.bind (stores_of_modest modest_loadSessionSecrets) fun stored => ?_
  refine Only.bind (stores_verifyReplacementPin _ _ _) fun _ => ?_
  refine Only.bind (stores_verifyReplacementPin _ _ _) fun _ => ?_
  exact stores_of_stays (AppState.completePairingReplacement_stays generation) rfl

/-- **Every program but a setup** saves none but those that a connection
resumes. -/
theorem AppOp.program_stores {op : AppOp} (hs : ∀ payload, op ≠ .setupComplete payload)
    (hserve : ∀ conn streams, op = .serve conn streams → resumes ⊆ pointers) :
    op.program.Only (StoresOnly pointers) := by
  by_cases ha : ∃ pin4 pin6, op = .authorizePairingReplacement pin4 pin6
  · obtain ⟨pin4, pin6, rfl⟩ := ha
    exact stores_authorizePairingReplacement pin4 pin6
  · exact stores_of_modest (AppOp.program_modest hs (fun pin4 pin6 h => ha ⟨pin4, pin6, h⟩) hserve)

end

/-! ## What is saved when a pairing is resumed -/

/-- Of the pointers, the command saves this one for this generation, and none
but the retiring one besides. -/
def Resumes (id : Uuid) (p : Pointer) (c : StoreCmd) : Prop :=
  ∀ q id', c = .save (.pointer q) id' → q = .retiring ∨ q = p ∧ id' = id

section

omit [Crypto]

variable {α : Type} {id : Uuid} {p : Pointer}

theorem resumes_of_points {q : StoreProg α} (hq : q.Only (PointsOnly [.retiring])) :
    q.Only (Resumes id p) :=
  Only.mono hq fun _ h q' id' hc => .inl (List.mem_singleton.mp (h.points q' id' hc))

theorem resumes_saveGenerationId (id : Uuid) (p : Pointer) :
    (saveGenerationId p id).Only (Resumes id p) := by
  refine Only.mapError (Only.bind (Only.perform fun q id' hc => ?_) fun r => ?_)
  · obtain ⟨hk, hid⟩ := StoreCmd.save.inj hc
    obtain rfl := Key.pointer.inj hk
    exact .inr ⟨rfl, (eq_of_heq hid).symm⟩
  · cases r <;> trivial

theorem resumes_flipActive (id : Uuid) : (flipActive id).Only (Resumes id .active) := by
  refine Only.bind (resumes_of_points (points_loadGenerationId _)) fun _ => Only.ite trivial ?_
  refine Only.bind (resumes_of_points (points_retireActive (by decide) _)) fun _ =>
    Only.bind (Only.mapError (resumes_saveGenerationId id .active)) fun _ =>
      Only.each fun kind => ?_
  exact Only.bind (Only.attempt (resumes_of_points (points_deleteEntry _))) fun _ => trivial

end

/-- **`commit_pending_generation`** saves the committed pointer, for the
generation it is asked for. -/
theorem resumes_commitPendingGeneration (id : Uuid) :
    (commitPendingGeneration id).Only (Resumes id .committed) := by
  have hload : ∀ message : String, (StoreProg.context message
      (loadMetadataValidatedGeneration id)).Only (Resumes id .committed) :=
    fun _ => Only.mapError (resumes_of_points (points_loadMetadataValidatedGeneration _))
  have hid : ∀ p, (loadGenerationId p).Only (Resumes id .committed) :=
    fun _ => resumes_of_points (points_loadGenerationId _)
  refine Only.bind (hid _) fun _ => Only.ite (Only.bind (hload _) fun _ =>
    resumes_of_points points_finalizeActiveActivation) ?_
  refine Only.bind (hid _) fun _ => Only.ite (Only.bind (hload _) fun _ => trivial) ?_
  exact Only.bind (hid _) fun _ => Only.ite trivial
    (Only.bind (hload _) fun _ => resumes_saveGenerationId id .committed)

/-- **`activate_generation`** saves the active pointer, for the generation it is
asked for. -/
theorem resumes_activateGeneration (id : Uuid) :
    (activateGeneration id).Only (Resumes id .active) := by
  have hload : ∀ (message : String) (other : Uuid), (StoreProg.context message
      (loadMetadataValidatedGeneration other)).Only (Resumes id .active) :=
    fun _ _ => Only.mapError (resumes_of_points (points_loadMetadataValidatedGeneration _))
  have hid : ∀ p, (loadGenerationId p).Only (Resumes id .active) :=
    fun _ => resumes_of_points (points_loadGenerationId _)
  refine Only.bind (hid _) fun _ => Only.ite (Only.bind (hload _ _) fun _ =>
    Only.bind (resumes_of_points points_finalizeActiveActivation) fun _ => trivial) ?_
  refine Only.bind (hid _) fun pending => ?_
  cases pending with
  | none => trivial
  | some pending =>
    refine Only.bind (hid _) fun committed => ?_
    cases committed with
    | none => trivial
    | some committed =>
      show Prog.Only _ (if pending ≠ committed ∨ committed ≠ id then _ else _)
      split
      · trivial
      · next hsame =>
        -- what is committed is what was asked for
        obtain rfl : committed = id := not_not.mp (not_or.mp hsame).2
        exact Only.bind (hload _ _) fun _ => Only.bind (resumes_flipActive _) fun _ =>
          Only.bind (resumes_of_points (points_cleanupActivationMetadata _)) fun _ => trivial

/-! ## Over a connection -/

section

open Logic StoreProg

variable {α : Type}

/-- **Found since**: by an act that came after those of the list. -/
def FoundSince (l : List AppAct) (P : AppAct → Prop) (l' : List AppAct) : Prop :=
  ∃ later e early, l' = later ++ e :: early ∧ l <:+ early ∧ P e

omit [Crypto] in
theorem FoundSince.suffix {l l' l'' : List AppAct} {P : AppAct → Prop} (h : FoundSince l P l')
    (hl : l' <:+ l'') : FoundSince l P l'' := by
  obtain ⟨later, e, early, rfl, hrest⟩ := h
  obtain ⟨m, rfl⟩ := hl
  exact ⟨m ++ later, e, early, by simp, hrest⟩

/-- What is read was there, since. -/
theorem getEntry_since (l : List AppAct) (k : Key) : (actLogic t).Triple (fun l' => l <:+ l')
    (getEntry k) (fun stored => FoundSince l fun e => stored = e.before.store.secrets k)
    fun _ _ => True := by
  refine Triple.perform_bind (M := fun r l' => ∀ stored, r = .ok stored →
    FoundSince l (fun e => stored = e.before.store.secrets k) l') stable_acts ?_ fun r => ?_
  · intro l₁ r l₂ _ hl hx
    refine ⟨actLogic_guar hx, fun stored hstored => ?_⟩
    obtain ⟨s, s', hx, rfl⟩ := hx
    obtain ⟨o, st, ho, -⟩ := App.exec_store.mp hx
    exact ⟨[], _, l₁, rfl, hl, (exec_get_same ho).2 stored hstored⟩
  · cases r with
    | ok stored => exact Triple.ret stable_acts fun l' _ h => h stored rfl
    | error e => exact Triple.fail stable_acts fun _ _ _ => trivial

/-- **The node that is recorded** is one of a record of the generation. -/
theorem pairingGenerationCliNodeId_since (l : List AppAct) (id : Uuid) :
    (actLogic t).Triple (fun l' => l <:+ l') (pairingGenerationCliNodeId id)
      (fun node l' => ∀ cliNodeId, node = some cliNodeId →
        FoundSince l (FindsRecord id cliNodeId) l')
      fun _ _ => True := by
  have hl : ∀ l₁ l₂, l <:+ l₁ → l₁ <:+ l₂ → l <:+ l₂ := fun _ _ h h' => h.trans h'
  refine Triple.bind (lasting_acts hl) fun _ => Triple.bind (lasting_acts hl) fun referenced => ?_
  show (actLogic t).Triple _ (if id ∈ referenced then _ else _) _ _
  split
  · refine Triple.bind (M := fun generation l' => generation.pairingId = id ∧
      FoundSince l (fun e => HoldsRecord e generation) l') (Triple.bind
        (Triple.mapError (getEntry_since l _)) fun stored => ?_) fun generation => ?_
    · cases stored with
      | none => exact Triple.fail stable_acts fun _ _ _ => trivial
      | some generation =>
        show (actLogic t).Triple _ (if generation.pairingId ≠ id then _ else _) _ _
        split
        · exact Triple.fail stable_acts fun _ _ _ => trivial
        · next hid =>
          refine Triple.pure stable_acts fun l' _ h => ⟨not_not.mp hid, ?_⟩
          obtain ⟨later, e, early, hacts, hsince, hstored⟩ := h
          refine ⟨later, e, early, hacts, hsince, ?_⟩
          show e.before.store.secrets.gen generation.pairingId = some generation
          rw [not_not.mp hid]
          exact hstored.symm
    · refine Triple.pure stable_acts fun l' _ ⟨hid, h⟩ cliNodeId hnode => ?_
      obtain ⟨later, e, early, hacts, hsince, hrecord⟩ := h
      exact ⟨later, e, early, hacts, hsince, generation, hrecord, hid, Option.some.inj hnode⟩
  · exact Triple.pure stable_acts fun _ _ _ _ => nofun

/-- **A record is saved**, with its generation and its node. -/
theorem storePendingPairingGeneration_saves (id : Uuid) (approvalAlias : ApprovalAlias)
    (der : Bytes) (share : Bytes32) (pin4Hash pin6Hash : String) (cliNodeId : Bytes32) :
    (actLogic t).Triple (fun _ => True)
      (storePendingPairingGeneration id approvalAlias der share pin4Hash pin6Hash cliNodeId)
      (fun _ l => ∃ e ∈ l, SavesRecord id cliNodeId e) fun _ _ => True := by
  refine Triple.bind any_acts fun staging => ?_
  split
  · exact Triple.fail stable_acts fun _ _ _ => trivial
  split
  · exact Triple.fail stable_acts fun _ _ _ => trivial
  refine Triple.bind any_acts fun _ => Triple.bind (M := fun _ l => ∃ e ∈ l,
    SavesRecord id cliNodeId e) (Triple.mapError ?_) fun _ => Triple.bind done_stays fun _ =>
      done_stays
  refine Triple.perform_bind (M := fun _ l => ∃ e ∈ l, SavesRecord id cliNodeId e) stable_acts ?_
    fun r => ?_
  · intro l r l' _ _ hx
    refine ⟨actLogic_guar hx, ?_⟩
    obtain ⟨s, s', -, rfl⟩ := hx
    exact ⟨_, List.mem_cons_self, _, rfl, rfl, rfl⟩
  · cases r with
    | ok u => exact Triple.ret stable_acts fun _ _ h => h
    | error e => exact Triple.fail stable_acts fun _ _ _ => trivial

end

/-! ## The word is heard -/

section

omit [Crypto]

variable {conn : Connection} {id : Uuid} {message : FerusaMessage} {p : Pointer}

theorem SentByPeer.cons (h : SentByPeer conn id message l) {e : AppAct}
    (he : ¬ ReadsFrame e.command) : SentByPeer conn id message (e :: l) := by
  obtain ⟨stream, m, f, early, rfl, hf, hm, d, hd, hfound⟩ := h
  exact ⟨stream, e :: m, f, early, rfl, hf, List.forall_mem_cons.mpr ⟨he, hm⟩, d,
    List.mem_cons_of_mem _ hd, hfound⟩

theorem SentByDesktop.cons (h : SentByDesktop op id message l) {e : AppAct}
    (he : ¬ ReadsFrame e.command) : SentByDesktop op id message (e :: l) := by
  rcases h with ⟨conn, streams, hop, hsent⟩ | ⟨hop, conn, stream, hsent⟩
  · exact .inl ⟨conn, streams, hop, hsent.cons he⟩
  · exact .inr ⟨hop, conn, stream, hsent.cons e⟩

/-- **A command of the resumption**: no frame is read. -/
structure Resuming (id : Uuid) (p : Pointer) (c : AppCmd) : Prop where
  store : ∀ c', c = .store c' → Resumes id p c'
  reads : ¬ ReadsFrame c

/-- What commits, at the word of the desktop. -/
theorem ResumingMay.of_commit {e : AppAct} (h : SentByDesktop op id (.pairingCommit id) l)
    (he : Resuming id .committed e.command) : ResumingMay op l e where
  commits id' hid := by
    obtain hp | ⟨-, rfl⟩ := he.store _ hid .committed id' rfl
    · cases hp
    · exact h
  activates id' hid := by
    obtain hp | ⟨hp, -⟩ := he.store _ hid .active id' rfl
    · cases hp
    · cases hp

/-- What activates, at the word of the desktop. -/
theorem ResumingMay.of_activate {e : AppAct} (h : SentByDesktop op id (.pairingActivate id) l)
    (he : Resuming id .active e.command) : ResumingMay op l e where
  commits id' hid := by
    obtain hp | ⟨hp, -⟩ := he.store _ hid .committed id' rfl
    · cases hp
    · cases hp
  activates id' hid := by
    obtain hp | ⟨-, rfl⟩ := he.store _ hid .active id' rfl
    · cases hp
    · exact h

theorem resuming_hoist {ε α : Type} {q : Prog StoreCmd.Reply ε α} (hq : q.Only (Resumes id p)) :
    (q.hoist AppCmd.store fun _ r => r : Prog AppCmd.Reply ε α).Only (Resuming id p) :=
  Only.hoist (Only.mono hq fun _ hc => ⟨fun _ heq => AppCmd.store.inj heq ▸ hc, nofun⟩)

theorem resuming_guard {α : Type} {q : StoreProg α} (hq : q.Only (Resumes id p)) :
    (StoreProg.withStorageGuard q).Only (Resumes id p) :=
  Only.bind (Only.perform nofun) fun _ => Only.bind (Only.attempt hq) fun _ =>
    Only.bind (Only.perform nofun) fun _ => Only.ofExcept

end

/-! ### Over a connection -/

/-- What is asked of the outside. -/
theorem outside_call {α : Type} {c : OutsideCmd} {k : c.Reply → AppProg α}
    {Q : Except AppError α → List AppAct → Prop}
    (hk : ∀ r s s', (resumingDiscipline Z).Keeps t op (⟨t, .ask c, r, s, s'⟩ :: l) (k r) Q) :
    (resumingDiscipline Z).Keeps t op l (ask c >>= k) Q :=
  Keeps.call fun r s s' _ _ => ⟨.of_silent nofun, hk r s s'⟩

/-- What is left to do is silent. -/
theorem silent_keeps {ε α : Type} {q : Prog AppCmd.Reply ε α} (hq : q.Only Silent) :
    (resumingDiscipline Z).Keeps t op l q fun _ _ => True :=
  (keeps_of_silent hq).mono fun _ _ _ => trivial

/-- **Nothing was read since**: what was done reads no frame. -/
def UnreadSince (l l' : List AppAct) : Prop := ∃ m, l' = m ++ l ∧ ∀ b ∈ m, ¬ ReadsFrame b.command

omit [Crypto] in
theorem UnreadSince.cons {l' : List AppAct} (h : UnreadSince l l') {e : AppAct}
    (he : ¬ ReadsFrame e.command) : UnreadSince l (e :: l') := by
  obtain ⟨m, rfl, hm⟩ := h
  exact ⟨e :: m, rfl, List.forall_mem_cons.mpr ⟨he, hm⟩⟩

/-- What is silent, and reads no frame. -/
theorem unread_keeps {ε α : Type} {l' : List AppAct} {q : Prog AppCmd.Reply ε α}
    (hq : q.Only fun c => Silent c ∧ ¬ ReadsFrame c) (h : UnreadSince l l') :
    (resumingDiscipline Z).Keeps t op l' q fun _ l'' => UnreadSince l l'' :=
  Keeps.while_known hq h fun _ _ _ _ _ hc hw => ⟨.of_silent hc.1, hw.cons hc.2⟩

omit [Crypto] in
/-- What the store does reads no frame. -/
theorem unread_store {K : StoreCmd → Prop} {m₁ m₂ : List AppAct}
    (hm₂ : ∀ b ∈ m₂, ∃ c, K c ∧ b.command = .store c)
    (hm₁ : ∀ b ∈ m₁, ¬ ReadsFrame b.command) : ∀ b ∈ m₂ ++ m₁, ¬ ReadsFrame b.command := by
  intro b hb
  rcases List.mem_append.mp hb with hb | hb
  · obtain ⟨c, -, hcommand⟩ := hm₂ b hb
    rw [hcommand]
    exact nofun
  · exact hm₁ b hb

/-- **The record is found** that names the node at the other end, after the frame
was read. -/
theorem isAuthorizedPairingRecoveryPeer_finds {conn : Connection} {l' : List AppAct} (id : Uuid)
    (h : UnreadSince l l') : (resumingDiscipline Z).Keeps t op l'
      (isAuthorizedPairingRecoveryPeer conn id) fun x l'' => UnreadSince l l'' ∧
        (x = .ok true → ∃ m, l'' = m ++ l ∧ (∀ b ∈ m, ¬ ReadsFrame b.command) ∧
          ∃ d ∈ m, FindsRecord id conn.remoteId d) := by
  obtain ⟨m₁, rfl, hm₁⟩ := h
  refine Keeps.bind (storage_keeps (D := resumingDiscipline Z) (K := PointsOnly []) ?_
    (points_withStorageGuard (points_pairingGenerationCliNodeId id))
    (fun _ _ h hl => h.trans hl) (fun _ _ _ h hl node hnode => (h node hnode).suffix hl)
    (pairingGenerationCliNodeId_since (m₁ ++ l) id) List.suffix_rfl)
    (fun r l₂ ⟨⟨m₂, hl₂, hm₂⟩, hr⟩ => ?_) fun _ l₂ ⟨⟨m₂, hl₂, hm₂⟩, _⟩ => ?_
  · intro l c r s s' hc
    exact .of_silent fun c' heq => AppCmd.store.inj heq ▸ hc.mono (List.nil_subset _)
  · have hunread : ∀ b ∈ m₂ ++ m₁, ¬ ReadsFrame b.command := unread_store hm₂ hm₁
    have hacts : l₂ = (m₂ ++ m₁) ++ l := by rw [hl₂, List.append_assoc]
    match r with
    | .error e => exact Keeps.pure ⟨⟨_, hacts, hunread⟩, nofun⟩
    | .ok none => exact Keeps.pure ⟨⟨_, hacts, hunread⟩, nofun⟩
    | .ok (some node) =>
      refine Keeps.pure ⟨⟨_, hacts, hunread⟩, fun hnode => ⟨_, hacts, hunread, ?_⟩⟩
      obtain rfl : conn.remoteId = node := of_decide_eq_true (Except.ok.inj hnode)
      obtain ⟨later, d, early, hsplit, ⟨k, rfl⟩, hd⟩ := hr _ rfl _ rfl _ rfl
      -- what was found is among what was done since
      have hm : m₂ = later ++ d :: k := by
        refine (List.append_left_inj (m₁ ++ l)).mp ?_
        rw [← hl₂, hsplit]
        simp
      exact ⟨d, by simp [hm], hd⟩
  · exact ⟨⟨m₂ ++ m₁, by rw [hl₂, List.append_assoc], unread_store hm₂ hm₁⟩, nofun⟩

/-- **The peer of a recovery is authorized** by the record of the generation,
however the connection was authenticated. -/
theorem authorizeRecovery_heard {conn : Connection} {stream : Stream} {message : FerusaMessage}
    {f : AppAct} (deadline : Nat) (authenticated : Bool) (id : Uuid)
    (hf : BringsMessage stream message f) :
    (resumingDiscipline Z).Keeps t op (f :: l) (authorize authenticated deadline
      (isAuthorizedPairingRecoveryPeer conn id)) fun x l' =>
        x = .ok true → SentByPeer conn id message l' := by
  have htime : (hasTime authenticated deadline).Only fun c => Silent c ∧ ¬ ReadsFrame c :=
    Only.ite trivial (Only.bind (Only.perform ⟨nofun, nofun⟩) fun _ => trivial)
  refine Keeps.bind (unread_keeps htime ⟨[], rfl, List.forall_mem_nil _⟩) (fun time l₁ h₁ => ?_)
    fun _ _ _ => nofun
  split
  · refine Keeps.bind (isAuthorizedPairingRecoveryPeer_finds id h₁) (fun passed l₂ ⟨_, h₂⟩ => ?_)
      fun _ _ _ => nofun
    refine Keeps.call fun late s s' _ _ => ⟨.of_silent nofun, Keeps.ret fun hpassed => ?_⟩
    have hboth : passed = true ∧ (!late) = true := by simpa using hpassed
    obtain ⟨m, rfl, hm, d, hd, hfound⟩ := h₂ (congrArg _ hboth.1)
    exact SentByPeer.cons ⟨stream, m, f, l, rfl, hf, hm, d, hd, hfound⟩ nofun
  · exact Keeps.pure nofun

section

variable {conn : Connection} {streams : Nat}

theorem servePairingCommit_resumes {stream : Stream} {f : AppAct} (deadline : Nat)
    (authenticated : Bool) (id : Uuid) (hf : BringsMessage stream (.pairingCommit id) f) :
    (resumingDiscipline Z).Keeps t (.serve conn streams) (f :: l)
      (servePairingCommit conn deadline authenticated stream id) fun _ _ => True := by
  refine Keeps.bind (authorizeRecovery_heard deadline authenticated id hf)
    (fun authorized l₁ h₁ => ?_) fun _ _ _ => trivial
  cases authorized with
  | false => exact silent_keeps (stores_of_stays (closeAndStop_stays _ _) rfl)
  | true =>
    rw [if_neg (not_not_intro rfl)]
    refine Keeps.bind (Keeps.while_known (W := SentByDesktop _ id (.pairingCommit id)) (Only.attempt
      (resuming_hoist (resuming_guard (resumes_commitPendingGeneration id))))
      (.inl ⟨conn, streams, rfl, h₁ rfl⟩) fun _ _ _ _ _ hc hw =>
        ⟨.of_commit hw hc, hw.cons hc.reads⟩) (fun r l₂ _ => ?_) fun _ _ _ => trivial
    cases r with
    | error e => exact Keeps.pure trivial
    | ok u =>
      exact silent_keeps (Only.bind (stores_of_stays (sendFrame_stays _ rfl) rfl) fun _ => trivial)

theorem servePairingActivate_resumes {stream : Stream} {f : AppAct} (deadline : Nat)
    (authenticated : Bool) (id : Uuid) (hf : BringsMessage stream (.pairingActivate id) f) :
    (resumingDiscipline Z).Keeps t (.serve conn streams) (f :: l)
      (servePairingActivate conn deadline authenticated stream id) fun _ _ => True := by
  refine Keeps.bind (authorizeRecovery_heard deadline authenticated id hf)
    (fun authorized l₁ h₁ => ?_) fun _ _ _ => trivial
  cases authorized with
  | false => exact silent_keeps (stores_of_stays (closeAndStop_stays _ _) rfl)
  | true =>
    rw [if_neg (not_not_intro rfl)]
    refine Keeps.bind (Keeps.while_known (W := SentByDesktop _ id (.pairingActivate id))
      (Only.attempt (resuming_hoist (resuming_guard (resumes_activateGeneration id))))
      (.inl ⟨conn, streams, rfl, h₁ rfl⟩) fun _ _ _ _ _ hc hw =>
        ⟨.of_activate hw hc, hw.cons hc.reads⟩) (fun r l₂ _ => ?_) fun _ _ _ => trivial
    cases r with
    | error e => exact Keeps.pure trivial
    | ok generation =>
      exact silent_keeps (Only.bind (stores_of_stays (announceActivation_stays _ _) rfl)
        fun _ => trivial)

/-- **One message.** -/
theorem serveMessage_resumes {stream : Stream} {message : Except String FerusaMessage} {f : AppAct}
    (deadline : Nat) (authenticated : Bool)
    (hf : ∀ m, message = .ok m → BringsMessage stream m f) :
    (resumingDiscipline Z).Keeps t (.serve conn streams) (f :: l)
      (serveMessage conn deadline authenticated stream message) fun _ _ => True := by
  unfold serveMessage
  split
  · exact silent_keeps (stores_of_stays (servePing_stays _ _ _ _) rfl)
  · next id => exact servePairingCommit_resumes deadline authenticated id (hf _ rfl)
  · next id => exact servePairingActivate_resumes deadline authenticated id (hf _ rfl)
  · exact silent_keeps (stores_of_stays (serveRequest_stays _ _ _ _ _) rfl)
  · exact silent_keeps (stores_of_stays (serveOther_stays _ _ _) rfl)
  · exact silent_keeps (stores_of_stays (serveOther_stays _ _ _) rfl)

/-- **A stream**: what was read from it is what is done. -/
theorem serveStream_resumes (deadline : Nat) (authenticated : Bool) :
    (resumingDiscipline Z).Keeps t (.serve conn streams) l
      (serveStream conn deadline authenticated) fun _ _ => True := by
  have hclose : ∀ l reason, (resumingDiscipline Z).Keeps t (.serve conn streams) l
      (closeAndStop conn reason) fun _ _ => True :=
    fun _ _ => silent_keeps (stores_of_stays (closeAndStop_stays _ _) rfl)
  have htime : ∀ l, (resumingDiscipline Z).Keeps t (.serve conn streams) l
      (hasTime authenticated deadline) fun _ _ => True :=
    fun _ => silent_keeps (stores_of_stays (hasTime_stays _ _) rfl)
  refine Keeps.bind (htime l) (fun time l₁ _ => ?_) fun _ _ _ => trivial
  split
  · exact hclose _ _
  refine outside_call fun accepted s s' => ?_
  cases accepted with
  | failed e => exact Keeps.pure trivial
  | timedOut => exact hclose _ _
  | ok stream =>
    refine Keeps.bind (htime _) (fun time l₂ _ => ?_) fun _ _ _ => trivial
    split
    · exact hclose _ _
    refine outside_call fun data u u' => ?_
    cases data with
    | failed e => exact silent_keeps (stores_of_stays (serveOther_stays _ _ _) rfl)
    | timedOut => exact hclose _ _
    | ok message =>
      exact serveMessage_resumes deadline authenticated fun m hm => ⟨t, u, u', by rw [hm]⟩

theorem serveStreams_resumes (deadline : Nat) (left : Nat) (authenticated : Bool) :
    (resumingDiscipline Z).Keeps t (.serve conn streams) l
      (serveStreams conn deadline left authenticated) fun _ _ => True := by
  induction left generalizing l authenticated with
  | zero => exact Keeps.pure trivial
  | succ left ih =>
    refine Keeps.bind (serveStream_resumes deadline authenticated) (fun served l₁ _ => ?_)
      fun _ _ _ => trivial
    cases served with
    | stop => exact Keeps.pure trivial
    | next authenticated => exact ih authenticated

end

/-! ### Over the stream of the pairing -/

omit [Crypto] in
theorem Preceded.of_mem {P : AppAct → Prop} (h : ∃ e ∈ l, P e) : Preceded [P] l := by
  obtain ⟨e, he, hP⟩ := h
  obtain ⟨later, early, rfl⟩ := List.append_of_mem he
  exact ⟨later, e, early, rfl, hP, trivial⟩

/-- **What is asked of the peer**, and answered. -/
theorem request_call {α β : Type} {message : String} {c : OutsideCmd}
    {h : c.Reply = Except String α} {k : α → PeerProg β}
    {Q : Except Anyhow β → List AppAct → Prop} (he : ∀ e l', Q (.error e) l')
    (hk : ∀ r s s' a, cast h r = .ok a →
      (resumingDiscipline Z).Keeps t op (⟨t, .ask c, r, s, s'⟩ :: l) (k a) Q) :
    (resumingDiscipline Z).Keeps t op l (PeerProg.request message c h >>= k) Q := by
  refine Keeps.bind (M := fun x l' => ∀ a, x = .ok a →
    ∃ r s s', cast h r = .ok a ∧ l' = ⟨t, .ask c, r, s, s'⟩ :: l) (Keeps.bind
      (M := fun x l' => ∀ r, x = .ok r → ∃ s s', l' = ⟨t, .ask c, r, s, s'⟩ :: l)
      (Keeps.call fun r s s' _ _ => ⟨.of_silent nofun, Keeps.ret ?_⟩) (fun r l₁ h₁ => ?_)
      fun _ _ _ => nofun) (fun a l₁ h₁ => ?_) fun e l' _ => he e l'
  · intro r' hr
    obtain rfl := Except.ok.inj hr
    exact ⟨s, s', rfl⟩
  · obtain ⟨s, s', rfl⟩ := h₁ r rfl
    cases hr : cast h r with
    | ok a =>
      refine Keeps.pure fun a' ha => ⟨r, s, s', ?_, rfl⟩
      rw [hr, Except.ok.inj ha]
    | error e => exact Keeps.fail fun _ => nofun
  · obtain ⟨r, s, s', hr, rfl⟩ := h₁ a rfl
    exact hk r s s' a hr

/-- **The next message has to be this one.** -/
theorem expect_reads {stream : Stream} {name : String} {expected : FerusaMessage} :
    (resumingDiscipline Z).Keeps t op l (PeerProg.expect stream name expected) fun x l' =>
      x = .ok () → ∃ e, l' = e :: l ∧ ReadsMessage stream expected e := by
  refine request_call (fun _ _ => nofun) fun r s s' message hr => ?_
  split
  · next hsame =>
    obtain rfl : message = expected := hsame
    exact Keeps.pure fun _ => ⟨_, rfl, t, s, s', by rw [show r = .ok message from hr]⟩
  · exact Keeps.fail nofun

/-- **The pairing**, over the stream that the phone has opened: it is committed and
activated at the word of the desktop. -/
theorem pairWithCli_resumes {staged : StagedPairing} {readySignature : Bytes} {code : Nat}
    (hop : ∃ payload, op = .setupComplete payload)
    (hsaved : ∃ e ∈ l, SavesRecord staged.pairingId staged.cliNodeId e) :
    (resumingDiscipline Z).Keeps t op l (pairWithCli staged readySignature code)
      fun _ _ => True := by
  refine request_call (fun _ _ => trivial) fun r₁ s₁ s₁' number hr₁ => ?_
  let conn : Connection := { number, remoteId := staged.cliNodeId }
  have hconnects : Preceded [Connects conn, SavesRecord staged.pairingId conn.remoteId]
      (⟨t, .ask (.connect staged.cliNodeId), r₁, s₁, s₁'⟩ :: l) :=
    (Preceded.of_mem hsaved).found ⟨t, s₁, s₁', by rw [show r₁ = .ok number from hr₁]⟩
  refine request_call (fun _ _ => trivial) fun r₂ s₂ s₂' stream hr₂ => ?_
  have hopens := hconnects.found (P := OpensStream conn stream)
    (e := ⟨t, .ask (.openBi conn), r₂, s₂, s₂'⟩) ⟨t, s₂, s₂', by rw [show r₂ = .ok stream from hr₂]⟩
  refine request_call (fun _ _ => trivial) fun r₃ s₃ s₃' _ _ => ?_
  have h₃ := hopens.cons ⟨t, .ask (.send stream (.pairingHello
    { pairingId := staged.pairingId, approvalPublicKeyDer := staged.approvalPublicKeyDer,
      phoneShare := staged.phoneShare, verificationCode := code })), r₃, s₃, s₃'⟩
  refine Keeps.bind expect_reads (fun _ l₄ h₄ => ?_) fun _ _ _ => trivial
  obtain ⟨e₄, rfl, -⟩ := h₄ rfl
  refine request_call (fun _ _ => trivial) fun r₅ s₅ s₅' _ _ => ?_
  have h₅ := (h₃.cons e₄).cons ⟨t, .ask (.send stream (.pairingReady staged.pairingId
    readySignature)), r₅, s₅, s₅'⟩
  refine Keeps.bind expect_reads (fun _ l₆ h₆ => ?_) fun _ _ _ => trivial
  obtain ⟨e₆, rfl, he₆⟩ := h₆ rfl
  -- the desktop has said that it is committed
  refine Keeps.bind (Keeps.mapError (Q := fun _ l' => Preceded [ReadsMessage stream
    (.pairingCommit staged.pairingId), OpensStream conn stream, Connects conn,
    SavesRecord staged.pairingId conn.remoteId] l') (Keeps.while_known (resuming_hoist
    (resuming_guard (resumes_commitPendingGeneration staged.pairingId))) (h₅.found he₆)
    fun _ _ _ _ _ hc hw => ⟨.of_commit (.inr ⟨hop, conn, stream, hw⟩) hc, hw.cons _⟩))
    (fun _ l₇ h₇ => ?_) fun _ _ _ => trivial
  refine request_call (fun _ _ => trivial) fun r₈ s₈ s₈' _ _ => ?_
  have h₈ := h₇.tail.cons ⟨t, .ask (.send stream (.pairingCommitAck staged.pairingId)), r₈, s₈, s₈'⟩
  refine Keeps.bind expect_reads (fun _ l₉ h₉ => ?_) fun _ _ _ => trivial
  obtain ⟨e₉, rfl, he₉⟩ := h₉ rfl
  -- and that it is to be activated
  refine Keeps.bind (M := fun _ _ => True) (Keeps.mapError ((Keeps.while_known
    (W := Preceded [ReadsMessage stream (.pairingActivate staged.pairingId),
      OpensStream conn stream, Connects conn, SavesRecord staged.pairingId conn.remoteId])
    (resuming_hoist (resuming_guard (resumes_activateGeneration staged.pairingId)))
    (h₈.found he₉) fun _ _ _ _ _ hc hw =>
      ⟨ResumingMay.of_activate (.inr ⟨hop, conn, stream, hw⟩) hc, hw.cons _⟩).mono
        fun _ _ _ => trivial)) (fun _ l₁₀ _ => ?_) fun _ _ _ => trivial
  refine request_call (fun _ _ => trivial) fun _ _ _ _ _ => ?_
  refine request_call (fun _ _ => trivial) fun _ _ _ _ _ => ?_
  refine request_call (fun _ _ => trivial) fun _ _ _ _ _ => ?_
  exact silent_keeps (Only.perform nofun)

/-- **What is staged has a record**, with its node. -/
theorem stagePairing_saves (pin4Hash pin6Hash : String) (cliNodeId : Bytes32) :
    (resumingDiscipline Z).Keeps t op l (stagePairing pin4Hash pin6Hash cliNodeId) fun x l' =>
      ∀ staged, x = .ok staged → ∃ e ∈ l', SavesRecord staged.pairingId staged.cliNodeId e := by
  have habandon : ∀ {id error l}, (resumingDiscipline Z).Keeps t op l
      (abandonPairing id error : AppProg StagedPairing) fun x l' =>
        ∀ staged, x = .ok staged → ∃ e ∈ l', SavesRecord staged.pairingId staged.cliNodeId e :=
    fun {id _ _} => Keeps.bind (silent_keeps (stores_of_modest (modest_storage
      (points_abortUnstartedPairing id)))) (fun _ _ _ => Keeps.fail fun _ => nofun)
      fun _ _ _ _ => nofun
  refine Keeps.bind (silent_keeps (Only.perform nofun)) (fun id l₀ _ => ?_) fun _ _ _ _ => nofun
  refine Keeps.bind (silent_keeps (stores_of_modest (modest_storage
    (points_beginPendingPairing (show Pointer.staging ∈ [.staging, .pending, .retiring] by decide)
      id)))) (fun begun l₁ _ => ?_) fun _ _ _ _ => nofun
  refine mapErr_goes (fun _ _ _ => nofun) fun _ _ => ?_
  refine Keeps.bind (silent_keeps (stores_of_modest (Only.attempt (modest_hoist
    (points_generateApprovalKey _))))) (fun generated l₂ _ => ?_) fun _ _ _ _ => nofun
  cases generated with
  | error e => exact habandon
  | ok der =>
    refine outside_call fun share u u' => ?_
    refine Keeps.bind (storage_keeps (D := resumingDiscipline Z) (K := PointsOnly [.pending])
      (P := fun _ => True) ?_ (points_withStorageGuard (points_storePendingPairingGeneration
        (by decide) id _ der share pin4Hash pin6Hash cliNodeId)) (fun _ _ _ _ => trivial)
      (fun _ _ _ h hl => exists_suffix h hl) (storePendingPairingGeneration_saves _ _ _ _ _ _ _)
      trivial) (fun stored l₃ ⟨_, h₃⟩ => ?_) fun _ _ _ _ => nofun
    · intro l c r s s' hc
      exact .of_silent fun c' heq => AppCmd.store.inj heq ▸ hc.mono (by decide)
    · cases stored with
      | error e => exact habandon
      | ok u =>
        refine Keeps.pure fun staged hstaged => ?_
        obtain rfl := Except.ok.inj hstaged
        exact h₃ _ rfl _ rfl

theorem setupComplete_resumes (payload : SetupPayload) : (resumingDiscipline Z).Keeps t
    (.setupComplete payload) l (setupComplete payload) fun _ _ => True := by
  refine Keeps.bind (silent_keeps stores_requireReplacementAuthorization) (fun _ l₁ _ => ?_)
    fun _ _ _ => trivial
  refine Keeps.bind (M := fun _ _ => True) (Keeps.ofExcept trivial) (fun node l₂ _ => ?_)
    fun _ _ _ => trivial
  refine Keeps.bind (silent_keeps (stores_of_stays consumeSetupPairingCode_stays rfl))
    (fun code l₃ _ => ?_) fun _ _ _ => trivial
  refine Keeps.bind (silent_keeps (stores_of_stays (hashSetupPin_stays _) rfl))
    (fun pin4Hash l₄ _ => ?_) fun _ _ _ => trivial
  refine Keeps.bind (silent_keeps (stores_of_stays (hashSetupPin_stays _) rfl))
    (fun pin6Hash l₅ _ => ?_) fun _ _ _ => trivial
  refine Keeps.bind (silent_keeps (stores_of_stays acquireEndpoint_stays rfl))
    (fun _ l₆ _ => ?_) fun _ _ _ => trivial
  refine Keeps.bind (stagePairing_saves _ _ _) (fun staged l₇ h₇ => ?_) fun _ _ _ => trivial
  refine Keeps.bind (keeps_of_silent (stores_of_modest (modest_signReady staged)))
    (fun ready l₈ ⟨m, hl₈, _⟩ => ?_) fun _ _ _ => trivial
  refine Keeps.attempt_bind (pairWithCli_resumes ⟨payload, rfl⟩
    (exists_suffix (h₇ staged rfl) ⟨m, hl₈.symm⟩)) fun paired l₉ _ => ?_
  refine silent_keeps (Only.bind (stores_of_modest modest_mapErr) fun _ =>
    Only.bind (stores_of_modest modest_loadSessionSecrets) fun stored => ?_)
  exact Only.bind (Only.perform nofun) fun _ => Only.bind (Only.perform nofun) fun _ =>
    stores_of_stays AppState.lock_stays rfl

/-- **The programs keep the discipline.** -/
theorem resumingDiscipline_valid (Z : Setting) : (resumingDiscipline Z).Valid where
  keeps t op := by
    by_cases hserve : ∃ conn streams, op = .serve conn streams
    · obtain ⟨conn, streams, rfl⟩ := hserve
      exact Keeps.bind (silent_keeps (Only.perform nofun))
        (fun now l₁ _ => serveStreams_resumes _ streams false) fun _ _ _ => trivial
    by_cases hs : ∃ payload, op = .setupComplete payload
    · obtain ⟨payload, rfl⟩ := hs
      exact setupComplete_resumes payload
    · exact silent_keeps (AppOp.program_stores (fun payload h => hs ⟨payload, h⟩)
        fun conn streams h => absurd ⟨conn, streams, h⟩ hserve)
  put _ _ _ := trivial
  start _ := trivial
  env _ := trivial

/-! ## What becomes active -/

/-- **The act makes the pointer name the generation.** -/
structure Turns (p : Pointer) (id : Uuid) (e : AppAct) : Prop where
  saves : SavesPointer p id e
  before : e.before.store.secrets.ptr p ≠ some id
  after : e.after.store.secrets.ptr p = some id

/-- What a pointer names it named at the start, or an act has made it so. -/
def TurnedSince (start : Secrets) (l : List AppAct) (s : App) : Prop :=
  ∀ p id, s.store.secrets.ptr p = some id →
    start.ptr p = some id ∨ ∃ e early later, l = later ++ e :: early ∧ Turns p id e

/-- **One more act.** -/
theorem TurnedSince.put {start : Secrets} {c : AppCmd} {r : c.Reply} {s s' : App}
    (h : TurnedSince start l s) (hx : App.Exec t c s r s') :
    TurnedSince start (⟨t, c, r, s, s'⟩ :: l) s' := by
  intro p id hid
  by_cases hbefore : s.store.secrets.ptr p = some id
  · refine (h p id hbefore).imp_right ?_
    rintro ⟨e, early, later, rfl, he⟩
    exact ⟨e, early, _ :: later, rfl, he⟩
  by_cases hc : ∃ c', c = .store c'
  · obtain ⟨c', rfl⟩ := hc
    obtain ⟨o, st, ho, rfl⟩ := App.exec_store.mp hx
    obtain rfl := (key_exec ho (k := .pointer p) hid).resolve_left hbefore
    exact .inr ⟨_, l, [], rfl, rfl, hbefore, hid⟩
  · rw [hx.aside.store fun c' h => hc ⟨c', h⟩] at hid
    exact absurd hid hbefore

/-- **Before each act**, every pointer was turned to what it names. -/
theorem turned_since {store : Store} {now epoch : Nat} {clock : ClockSnapshot}
    {usedUuids : List Uuid} {p : (appThreads .any).Running}
    (hp : (appThreads .any).Reaches (App.boot store now epoch clock usedUuids) p) :
    ∀ e early, p.state.Happened e early → TurnedSince store.secrets early e.before := by
  refine (resumingDiscipline_valid .any).chronicle (fun _ _ h => .inl h)
    (fun h hx _ => h.put hx) (fun h hs => ?_) (fun h he => ?_) (fun h hc => ?_) hp
  · obtain ⟨spawned, rfl⟩ := AppOp.Starts.spawned hs
    exact h
  · obtain ⟨he, -⟩ := he
    cases he <;> exact h
  · obtain ⟨⟨now, epoch, clock, rfl, -⟩, -⟩ := hc
    exact h

/-- **It was done at the word of the desktop.** -/
def AtWord (w : AppLog) (id : Uuid) (message : FerusaMessage) (e : AppAct) (early : List AppAct) :
    Prop :=
  ∃ op, w.ops e.thread = some op ∧
    SentByDesktop op id message (early.filter fun d => d.thread = e.thread)

/-- **What is active was committed**: whenever a pointer is turned, its source
names the generation. -/
theorem Turns.source_names {store : Store} {now epoch : Nat} {clock : ClockSnapshot}
    {usedUuids : List Uuid} {p : (appThreads .any).Running}
    (hp : (appThreads .any).Reaches (App.boot store now epoch clock usedUuids) p) {q : Pointer}
    (hs : q ≠ .staging) (hr : q ≠ .retiring) {id : Uuid} {e : AppAct} {early : List AppAct}
    (he : p.state.Happened e early) (h : Turns q id e) :
    ∃ q', q.source = some q' ∧ e.before.store.secrets.ptr q' = some id := by
  obtain ⟨op, -, -, hmay⟩ := (trackDiscipline_valid .any).followed hp e early he
  exact ((hmay ⟨_, h.saves⟩).turned hs hr h.after).resolve_left h.before

/-- **What is made active was committed**, by an act before, unless it was so at
the start. -/
theorem Turns.committed_before {store : Store} {now epoch : Nat} {clock : ClockSnapshot}
    {usedUuids : List Uuid} {p : (appThreads .any).Running}
    (hp : (appThreads .any).Reaches (App.boot store now epoch clock usedUuids) p) {id : Uuid}
    {a : AppAct} {early : List AppAct} (ha : p.state.Happened a early)
    (hactive : Turns .active id a) (hnew : store.secrets.ptr .committed ≠ some id) :
    ∃ c before, p.state.Happened c before ∧ c ∈ early ∧ Turns .committed id c := by
  obtain ⟨q, hq, hcommitted⟩ := Turns.source_names hp (q := .active) nofun nofun ha hactive
  obtain rfl : Pointer.committed = q := Option.some.inj hq
  obtain ⟨c, before, m, rfl, hc⟩ :=
    (turned_since hp a early ha .committed id hcommitted).resolve_left hnew
  obtain ⟨later, hacts⟩ := ha
  exact ⟨c, before, ⟨later ++ a :: m, by simp [hacts]⟩,
    List.mem_append_right _ List.mem_cons_self, hc⟩

/-- **A pairing is resumed at the word of its desktop.** Whatever is done, by
however many threads, suspended wherever, and whenever the app is killed: an
act that makes a generation the active one is done at the word of its
desktop, whether it was committed in the meantime or at the start; and if
it was not committed at the start, the act that had committed it, earlier,
was done at its word too. A setup has heard the word over the stream that it
had opened itself, on a connection to the node whose record it had saved; a
connection has heard it in the last frame that it had read, and after that
frame a record was found with the node at its other end. Neither the request
of a stranger nor one that was let through before is enough. -/
theorem resumed_at_word {store : Store} {now epoch : Nat} {clock : ClockSnapshot}
    {usedUuids : List Uuid} {p : (appThreads .any).Running}
    (hp : (appThreads .any).Reaches (App.boot store now epoch clock usedUuids) p) {id : Uuid}
    {a : AppAct} {early : List AppAct} (ha : p.state.Happened a early)
    (hactive : Turns .active id a) :
    AtWord p.state id (.pairingActivate id) a early ∧
      (store.secrets.ptr .committed ≠ some id →
        ∃ c before, p.state.Happened c before ∧ c ∈ early ∧ Turns .committed id c ∧
          AtWord p.state id (.pairingCommit id) c before) := by
  obtain ⟨op, hop, -, hmay⟩ := (resumingDiscipline_valid .any).followed hp a early ha
  refine ⟨⟨op, hop, hmay.activates id hactive.saves⟩, fun hnew => ?_⟩
  obtain ⟨c, before, hc, hmem, hturns⟩ := hactive.committed_before hp ha hnew
  obtain ⟨op', hop', -, hmay'⟩ := (resumingDiscipline_valid .any).followed hp c before hc
  exact ⟨c, before, hc, hmem, hturns, op', hop', hmay'.commits id hturns.saves⟩

omit [Crypto] in
/-- In the run of the replacement the second pairing becomes the active one. -/
theorem replacement_turns : ∃ (store : Store) (p : (@appThreads Crypto.plain .any).Running),
    (@appThreads Crypto.plain .any).Reaches
      (App.boot store 0 0 ⟨0, 0, Nat.zero_le _⟩ [1]) p ∧
    store.secrets.ptr .committed ≠ some 2 ∧ store.secrets.gen 2 = none ∧
    ∃ a early, p.state.Happened a early ∧ Turns .active 2 a := by
  have hfirst : ((@Bench.play Crypto.plain Bench.initial (nextPairing.take 6)).map Bench.store).map
      (fun store => decide (store.secrets.ptr .committed ≠ some 2 ∧
        store.secrets.ptr .active ≠ some 2 ∧ store.secrets.gen 2 = none)) = some true := by
    decide +kernel
  have hresult : (@playFirst Crypto.plain replacement).map (fun p => p.state.acts.head?.map
      fun e => e.before.store.secrets.ptr .active) = some (some (some 2)) := by decide +kernel
  obtain ⟨p, hp, hlast⟩ := Option.map_eq_some_iff.mp hresult
  obtain ⟨e, hhead, hactive⟩ := Option.map_eq_some_iff.mp hlast
  obtain ⟨early, hacts⟩ := List.head?_eq_some_iff.mp hhead
  obtain ⟨store, hstore, hp⟩ := Option.bind_eq_some_iff.mp hp
  rw [hstore] at hfirst
  obtain ⟨hcommitted, hnone, hgen⟩ := of_decide_eq_true (Option.some.inj hfirst)
  -- the last act is one after it was activated
  obtain ⟨a, before, m, rfl, ha⟩ := (@turned_since Crypto.plain _ _ _ _ _ _ (Player.play_sound hp)
    e early ⟨[], hacts⟩ .active 2 hactive).resolve_left hnone
  exact ⟨store, p, Player.play_sound hp, hcommitted, hgen, a, before,
    ⟨e :: m, by rw [hacts, List.cons_append]⟩, ha⟩

omit [Crypto] in
/-- The desktop has the second pairing committed, and then activated. -/
theorem resumed_at_word_twice : ∃ p : (@appThreads Crypto.plain .any).Running,
    ∃ a early, p.state.Happened a early ∧ Turns .active 2 a ∧
      AtWord p.state 2 (.pairingActivate 2) a early ∧
      ∃ c before, p.state.Happened c before ∧ c ∈ early ∧ Turns .committed 2 c ∧
        AtWord p.state 2 (.pairingCommit 2) c before := by
  obtain ⟨store, p, hp, hcommitted, -, a, early, ha, hactive⟩ := replacement_turns
  obtain ⟨hactivate, hcommit⟩ := @resumed_at_word Crypto.plain _ _ _ _ _ _ hp _ _ _ ha hactive
  exact ⟨p, a, early, ha, hactive, hactivate, hcommit hcommitted⟩

end Phone

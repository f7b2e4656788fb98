import Ferusa.Lib.Sequence
import Ferusa.Phone.Store
import Ferusa.Desktop.PairingText

/-!
# The identity of the phone

The desktop records the node id of the phone when it pairs, and reaches
the phone by it ever after: a phone that comes up under another id is one
the desktop can never reach again. The id is that of a secret key, which
the app makes up once, stores, and loads whenever it starts.

The keystore may fail at any call, and a save may leave anything behind,
whatever it answers; the process may be killed at any moment. That is why
a key that was made up is read back before it is used, and why the app
comes up without an endpoint where the key cannot be read.
-/

namespace Phone

open Prog StoreProg Desktop

/-- What `resolve_iroh_secret_key` asks for: a new key, and the entry
`iroh_secret_key` of the keystore. -/
inductive IdentityCmd where
  | generate
  | getEntry
  | saveEntry (value : String)

/-- What it is answered with. -/
abbrev IdentityCmd.Reply : IdentityCmd → Type
  | generate => Bytes32
  | getEntry => Except String (Option String)
  | saveEntry _ => Except String Unit

abbrev IdentityProg (α : Type) := Prog IdentityCmd.Reply Anyhow α

variable (H : HexCrate) (publicKey : Bytes32 → Bytes32)

/-- `from_bytes`, of what the entry decodes to. -/
def secretKeyOf (hexText : String) : Except Anyhow Bytes32 :=
  match H.hexDecode hexText with
  | .error e => .error ["decode iroh secret key", e]
  | .ok bytes =>
    if h : bytes.toArray.size = 32 then .ok ⟨bytes.toArray, h⟩
    else .error ["iroh secret key wrong length"]

/-- The outcome of a call to the keystore, under the context of its
wrapper. -/
def entryOutcome {α : Type} (message : String) : Except String α → Except Anyhow α
  | .ok a => .ok a
  | .error e => .error [message, e]

/-- **`load_iroh_secret_key`.** -/
def loadIrohSecretKey : IdentityProg (Option Bytes32) := do
  let reply ← Prog.perform IdentityCmd.getEntry
  match ← Prog.ofExcept (entryOutcome "get Android Keystore secret" reply) with
  | none => pure none
  | some hexText => Prog.ofExcept ((secretKeyOf H hexText).map some)

/-- **`store_iroh_secret_key`.** -/
def storeIrohSecretKey (secretKey : Bytes32) : IdentityProg Unit := do
  let reply ← Prog.perform (IdentityCmd.saveEntry (H.hexEncode secretKey.toList))
  Prog.ofExcept (entryOutcome "set Android Keystore secret" reply)

/-- **`resolve_iroh_secret_key`.** -/
def resolveIrohSecretKey : IdentityProg Bytes32 := do
  match ← (loadIrohSecretKey H).context "load iroh secret key" with
  | some secretKey => pure secretKey
  | none =>
    let generated ← Prog.perform IdentityCmd.generate
    (storeIrohSecretKey H generated).context "persist generated iroh secret key"
    let loaded ← (loadIrohSecretKey H).context "read back generated iroh secret key"
    let stored ← Prog.okOr "generated iroh secret key missing after store" loaded
    Prog.ensure (publicKey stored = publicKey generated)
      "generated iroh secret key changed during store"
    pure stored

/-- **The entry, and the keys the app came up with**, the latest first. -/
structure Identity where
  entry : Option String
  used : List Bytes32

/-- **What a command can do.** A read answers what the entry holds, or
fails; a save answers anything and leaves anything. -/
def Identity.Exec : (c : IdentityCmd) → Identity → c.Reply → Identity → Prop
  | .generate, s, _, s' => s' = s
  | .getEntry, s, r, s' => s' = s ∧ (r = .ok s.entry ∨ ∃ e, r = .error e)
  | .saveEntry _, s, _, s' => ∃ entry, s' = { s with entry := entry }

/-- **The starts of the app**, one after the other, each of which may be
cut short: the key it came up with is noted. -/
def identityScript : Script IdentityCmd.Reply Unit Identity Anyhow Bytes32 where
  exec := Identity.Exec
  program _ := resolveIrohSecretKey H publicKey
  start _ s s' := s' = s
  finish _ r s :=
    match r with
    | .ok secretKey => { s with used := secretKey :: s.used }
    | .error _ => s
  stop s s' := s' = s

/-- The entry holds the key. -/
def Identity.Holds (s : Identity) (secretKey : Bytes32) : Prop :=
  ∃ hexText, s.entry = some hexText ∧ secretKeyOf H hexText = .ok secretKey

/-- **What a start of the app leaves alone**: an entry that is there, and
what was noted before. -/
def Identity.Keeps (s s' : Identity) : Prop :=
  (s.entry ≠ none → s'.entry = s.entry) ∧ s'.used = s.used

/-- **What holds throughout**: the entry holds every key that was used. -/
def identityCertificate : Script.Certificate Unit Identity Anyhow Bytes32 where
  inv s := ∀ secretKey ∈ s.used, s.Holds H secretKey
  idle _ := True
  guar _ := Identity.Keeps
  post _ secretKey s := s.Holds H secretKey
  error _ _ _ := True

variable {H publicKey}

theorem Identity.Holds.keeps {s s' : Identity} {secretKey : Bytes32} (h : s.Holds H secretKey)
    (hkeeps : s.Keeps s') : s'.Holds H secretKey := by
  obtain ⟨hexText, hentry, hkey⟩ := h
  have hsome : s.entry ≠ none := by
    rw [hentry]
    exact Option.some_ne_none _
  exact ⟨hexText, (hkeeps.1 hsome).trans hentry, hkey⟩

theorem Identity.Keeps.refl (s : Identity) : s.Keeps s := ⟨fun _ => rfl, rfl⟩

/-- The setting of a start: nobody else touches the entry. -/
abbrev identityLogic (H : HexCrate) (publicKey : Bytes32 → Bytes32) :
    Logic IdentityCmd.Reply Identity :=
  (identityCertificate H).logic (identityScript H publicKey) ()

theorem stable_identity (P : Identity → Prop) : (identityLogic H publicKey).Stable P := by
  rintro s s' - hP rfl -
  exact hP

/-- **Loading** changes nothing: no key is returned where there is no
entry, and otherwise the one the entry holds. -/
theorem loadIrohSecretKey_triple :
    (identityLogic H publicKey).Triple (fun _ => True) (loadIrohSecretKey H)
      (fun loaded s => match loaded with
        | none => s.entry = none
        | some secretKey => s.Holds H secretKey)
      (fun _ _ => True) := by
  unfold loadIrohSecretKey
  -- what the keystore answered is what the entry holds, unless it failed
  refine Logic.Triple.perform_bind (M := fun r s => r = .ok s.entry ∨ ∃ e, r = .error e)
    (stable_identity _) ?_ fun r => ?_
  · rintro s r s' - - ⟨rfl, hr⟩
    exact ⟨.refl _, hr⟩
  refine Logic.Triple.bind (M := fun entry s => s.entry = entry) ?_ fun entry => ?_
  · cases r with
    | ok entry =>
      refine Logic.Triple.ret (stable_identity _) fun s _ hs => ?_
      obtain hs | ⟨e, he⟩ := hs
      · exact (Except.ok.inj hs).symm
      · cases he
    | error e => exact Logic.Triple.fail (stable_identity _) fun _ _ _ => trivial
  · cases entry with
    | none => exact Logic.Triple.pure (stable_identity _) fun _ _ hs => hs
    | some hexText =>
      refine Logic.Triple.ofExcept (stable_identity _) (fun loaded hloaded s _ hs => ?_)
        fun _ _ _ _ _ => trivial
      cases hkey : secretKeyOf H hexText with
      | ok secretKey =>
        rw [hkey] at hloaded
        obtain rfl : some secretKey = loaded := Except.ok.inj hloaded
        exact ⟨hexText, hs, hkey⟩
      | error e =>
        rw [hkey] at hloaded
        cases hloaded

/-- **Storing** is only ever done where there is no entry. -/
theorem storeIrohSecretKey_triple (secretKey : Bytes32) :
    (identityLogic H publicKey).Triple (fun s => s.entry = none) (storeIrohSecretKey H secretKey)
      (fun _ _ => True) (fun _ _ => True) := by
  unfold storeIrohSecretKey
  refine Logic.Triple.perform_bind (M := fun _ _ => True) (stable_identity _) ?_ fun r => ?_
  · rintro s r s' - hnone ⟨entry, rfl⟩
    exact ⟨⟨fun hsome => absurd hnone hsome, rfl⟩, trivial⟩
  · exact Logic.Triple.ofExcept (stable_identity _) (fun _ _ _ _ _ => trivial)
      fun _ _ _ _ _ => trivial

/-- **A start of the app** comes up with the key that the entry holds, and
leaves an entry that is there alone. -/
theorem resolveIrohSecretKey_triple :
    (identityLogic H publicKey).Triple (fun _ => True) (resolveIrohSecretKey H publicKey)
      (fun secretKey s => s.Holds H secretKey) (fun _ _ => True) := by
  unfold resolveIrohSecretKey
  refine Logic.Triple.bind (Logic.Triple.context loadIrohSecretKey_triple) fun loaded => ?_
  cases loaded with
  | some secretKey => exact Logic.Triple.pure (stable_identity _) fun _ _ hs => hs
  | none =>
    refine Logic.Triple.perform_bind (M := fun _ s => s.entry = none) (stable_identity _) ?_
      fun generated => ?_
    · rintro s r s' - hnone rfl
      exact ⟨.refl _, hnone⟩
    refine Logic.Triple.bind (Logic.Triple.context (storeIrohSecretKey_triple generated))
      fun _ => ?_
    -- whatever the save left, the key that is used is the one read back
    refine Logic.Triple.bind (Logic.Triple.context loadIrohSecretKey_triple) fun loaded => ?_
    refine Logic.Triple.bind (M := fun stored s => s.Holds H stored) ?_ fun stored => ?_
    · refine (Logic.Triple.okOr (stable_identity _) fun _ _ _ _ => trivial).post ?_
      rintro stored s - ⟨rfl, hs⟩
      exact hs
    · refine Logic.Triple.bind (Logic.Triple.ensure (stable_identity _) fun _ _ _ _ => trivial)
        fun _ => ?_
      exact Logic.Triple.pure (stable_identity _) fun _ _ hs => hs.2

theorem identityCertificate_valid : (identityCertificate H).Valid (identityScript H publicKey) where
  start := by
    rintro ⟨⟩ s s' hi - rfl
    exact ⟨hi, resolveIrohSecretKey_triple s' hi trivial⟩
  guar := by
    intro op s s' hi hkeeps secretKey hused
    rw [hkeeps.2] at hused
    exact (hi secretKey hused).keeps hkeeps
  ret := by
    intro op secretKey s hi hholds
    refine ⟨fun key hused => ?_, trivial⟩
    obtain rfl | hused := List.mem_cons.mp hused
    · exact hholds
    · exact hi key hused
  fail hi _ := ⟨hi, trivial⟩
  stop := by
    rintro s s' hi rfl
    exact ⟨hi, trivial⟩

/-- **Every step leaves an entry alone that is there.** -/
theorem identity_step {c c' : Script.Config IdentityCmd.Reply Unit Identity Anyhow Bytes32}
    (h : (identityCertificate H).Holds (identityScript H publicKey) c)
    (hs : (identityScript H publicKey).Step c c') (hsome : c.state.entry ≠ none) :
    c'.state.entry = c.state.entry := by
  obtain ⟨op, hstart⟩ | ⟨op, hguar⟩ | ⟨op, r, hfinish⟩ | hstop := h.cases hs
  · exact congrArg Identity.entry hstart
  · exact hguar.1 hsome
  · rw [hfinish]
    cases r with
    | ok _ => rfl
    | error _ => rfl
  · exact congrArg Identity.entry hstop

/-- Every run does. -/
theorem identity_steps {c c' : Script.Config IdentityCmd.Reply Unit Identity Anyhow Bytes32}
    (h : (identityCertificate H).Holds (identityScript H publicKey) c)
    (hs : (identityScript H publicKey).Steps c c') (hsome : c.state.entry ≠ none) :
    c'.state.entry = c.state.entry := by
  induction hs with
  | refl => rfl
  | @tail b c' hb hstep ih =>
    have hsome' : b.state.entry ≠ none := by rwa [ih]
    exact (identity_step (identityCertificate_valid.reachable h hb) hstep hsome').trans ih

/-- **The phone keeps its identity.** However often the app is started,
whatever fails, and whenever the process is killed: all the keys it comes
up with are one, the one that the entry holds; and an entry that is there
is never written again, not even one that cannot be read. -/
theorem identity_kept {entry : Option String}
    {c c' : Script.Config IdentityCmd.Reply Unit Identity Anyhow Bytes32}
    (hc : (identityScript H publicKey).Steps ⟨⟨entry, []⟩, none⟩ c)
    (hc' : (identityScript H publicKey).Steps c c') :
    (∀ secretKey ∈ c'.state.used, ∃ hexText, c'.state.entry = some hexText ∧
      secretKeyOf H hexText = .ok secretKey) ∧
    (∀ secretKey ∈ c'.state.used, ∀ other ∈ c'.state.used, secretKey = other) ∧
    (∀ hexText, c.state.entry = some hexText → c'.state.entry = some hexText) := by
  have hvalid : (identityCertificate H).Valid (identityScript H publicKey) :=
    identityCertificate_valid
  have hstart : (identityCertificate H).Holds (identityScript H publicKey) ⟨⟨entry, []⟩, none⟩ :=
    Script.Certificate.holds_idle (fun _ hused => absurd hused List.not_mem_nil) trivial
  have hholds := hvalid.reachable hstart hc
  have hinv := (hvalid.reachable hholds hc').inv
  refine ⟨hinv, fun secretKey hused other hother => ?_, fun hexText hentry => ?_⟩
  · obtain ⟨hexText, hentry, hkey⟩ := hinv secretKey hused
    obtain ⟨hexText', hentry', hkey'⟩ := hinv other hother
    obtain rfl : hexText = hexText' := Option.some.inj (hentry.symm.trans hentry')
    exact Except.ok.inj (hkey.symm.trans hkey')
  · rw [identity_steps hholds hc' (by rw [hentry]; exact Option.some_ne_none _), hentry]

/-! ## A keystore that does what it says -/

/-- A keystore that fails at nothing, and the key that is made up. -/
def Identity.soundly : (c : IdentityCmd) → Bytes32 → Identity → Option (c.Reply × Identity)
  | .generate, secretKey, s => some (secretKey, s)
  | .getEntry, _, s => some (.ok s.entry, s)
  | .saveEntry value, _, s => some (.ok (), { s with entry := some value })

theorem Identity.soundly_exec (c : IdentityCmd) (o : Bytes32) (s : Identity) (r : c.Reply)
    (s' : Identity) (h : Identity.soundly c o s = some (r, s')) : Identity.Exec c s r s' := by
  cases c with
  | generate =>
    obtain ⟨rfl, rfl⟩ := Prod.mk.inj (Option.some.inj h)
    rfl
  | getEntry =>
    obtain ⟨rfl, rfl⟩ := Prod.mk.inj (Option.some.inj h)
    exact ⟨rfl, .inl rfl⟩
  | saveEntry value =>
    obtain ⟨rfl, rfl⟩ := Prod.mk.inj (Option.some.inj h)
    exact ⟨_, rfl⟩

/-- **The entry holds the key that was stored.** -/
theorem secretKeyOf_hexEncode (secretKey : Bytes32) :
    secretKeyOf H (H.hexEncode secretKey.toList) = .ok secretKey := by
  have hsize : secretKey.toList.toArray.size = 32 := by simp
  unfold secretKeyOf
  rw [H.hexDecode_hexEncode]
  show (if h : secretKey.toList.toArray.size = 32 then Except.ok _ else _) = _
  rw [dif_pos hsize]
  rfl

/-- **The first start** comes up with the key that was made up, -/
theorem resolve_first (secretKey : Bytes32) (used : List Bytes32) :
    (resolveIrohSecretKey H publicKey).replay Identity.soundly
      (List.replicate 4 secretKey) ⟨none, used⟩ =
    some (.ok secretKey, ⟨some (H.hexEncode secretKey.toList), used⟩) := by
  have hkey := secretKeyOf_hexEncode (H := H) secretKey
  simp [resolveIrohSecretKey, loadIrohSecretKey, storeIrohSecretKey, Prog.context, Prog.mapError,
    Prog.replay, Identity.soundly, entryOutcome, Prog.perform, hkey, Except.map, Prog.okOr,
    Prog.ensure, List.replicate, pure]

/-- and every start after it with the key that is stored. -/
theorem resolve_again (secretKey other : Bytes32) (used : List Bytes32) :
    (resolveIrohSecretKey H publicKey).replay Identity.soundly [other]
      ⟨some (H.hexEncode secretKey.toList), used⟩ =
    some (.ok secretKey, ⟨some (H.hexEncode secretKey.toList), used⟩) := by
  have hkey := secretKeyOf_hexEncode (H := H) secretKey
  simp [resolveIrohSecretKey, loadIrohSecretKey, Prog.context, Prog.mapError, Prog.replay,
    Identity.soundly, entryOutcome, Prog.perform, hkey, Except.map, pure]

/-- **The phone keeps its identity**, here at two starts. -/
theorem identity_kept_twice : ∃ c, (identityScript hexCrate id).Steps ⟨⟨none, []⟩, none⟩ c ∧
    c.state.used.length = 2 ∧
    ∀ secretKey ∈ c.state.used, ∀ other ∈ c.state.used, secretKey = other := by
  let first : Bytes32 := .replicate 32 1
  have hstart : ∀ identity : Identity, (identityScript hexCrate id).start () identity identity :=
    fun _ => rfl
  have hone : (identityScript hexCrate id).Steps ⟨⟨none, []⟩, none⟩
      ⟨⟨some (hexCrate.hexEncode first.toList), [first]⟩, none⟩ :=
    .head (.start (hstart _))
      (Script.Steps.replay Identity.soundly_exec (resolve_first first []))
  have htwo : (identityScript hexCrate id).Steps
      ⟨⟨some (hexCrate.hexEncode first.toList), [first]⟩, none⟩
      ⟨⟨some (hexCrate.hexEncode first.toList), [first, first]⟩, none⟩ :=
    .head (.start (hstart _))
      (Script.Steps.replay Identity.soundly_exec (resolve_again first (.replicate 32 2) [first]))
  exact ⟨_, hone.trans htwo, rfl, (identity_kept hone htwo).2.1⟩

end Phone

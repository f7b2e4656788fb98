import Mathlib.Algebra.Order.Ring.Nat
import Ferusa.Lib.Json
import Ferusa.Core.Auth
import Ferusa.Core.Crypto

/-!
# What the phone signs

The approval key of a pairing signs two kinds of text: the canonical
approval payload – the JSON of a request and of the response to it,
without its signature – and the text that shows that the phone holds
the key. The payload determines the whole request and the whole
response (`canonicalApprovalPayload_inj`), and is never taken for a text
of the other kind.
-/

/-! ## Ids -/

/-- The last `n` digits are those of the remainder. -/
theorem hexDigits_inj {v w n : Nat} (h : hexDigits v n = hexDigits w n) :
    v % 16 ^ n = w % 16 ^ n := by
  induction n with
  | zero => rw [pow_zero, Nat.mod_one, Nat.mod_one]
  | succ n ih =>
    have hdigit : ∀ a < 16, ∀ b < 16, Nat.digitChar a = Nat.digitChar b → a = b := by
      decide
    rw [hexDigits, hexDigits] at h
    obtain ⟨hd, hrest⟩ := List.cons.inj h
    have heq := hdigit _ (Nat.mod_lt _ (by decide)) _ (Nat.mod_lt _ (by decide)) hd
    rw [pow_succ, Nat.mod_mul, Nat.mod_mul, ih hrest, heq]

theorem dash_notMem_hexDigits (value n : Nat) : '-' ∉ hexDigits value n := by
  induction n with
  | zero => simp [hexDigits]
  | succ n ih =>
    have hdigit : ∀ a < 16, '-' ≠ Nat.digitChar a := by decide
    rw [hexDigits, List.mem_cons, not_or]
    exact ⟨hdigit _ (Nat.mod_lt _ (by decide)), ih⟩

/-- Without its hyphens, the hyphenated form is the digits. -/
theorem Uuid.filter_hyphenated (id : Uuid) :
    (Uuid.hyphenated id).filter (· ≠ '-') = hexDigits id.toNat 32 := by
  have hdash := dash_notMem_hexDigits id.toNat 32
  unfold Uuid.hyphenated
  generalize hexDigits id.toNat 32 = d at hdash ⊢
  have hkeep : ∀ l : List Char, l.Sublist d → l.filter (· ≠ '-') = l := by
    intro l hl
    rw [List.filter_eq_self]
    intro c hc
    have hne : c ≠ '-' := fun h => hdash (h ▸ hl.subset hc)
    simpa using hne
  have hgroup : ∀ k, (d.drop k).take 4 ++ d.drop (k + 4) = d.drop k := by
    intro k
    rw [← List.drop_drop, List.take_append_drop]
  have hsub : ∀ k, ((d.drop k).take 4).Sublist d := fun k =>
    (List.take_sublist 4 _).trans (List.drop_sublist k d)
  calc _ = d.take 8 ++ ((d.drop 8).take 4 ++ ((d.drop 12).take 4 ++
        ((d.drop 16).take 4 ++ d.drop 20))) := by
        simp only [List.filter_append, List.filter_cons, hkeep _ (List.take_sublist 8 d),
          hkeep _ (hsub 8), hkeep _ (hsub 12), hkeep _ (hsub 16),
          hkeep _ (List.drop_sublist 20 d)]
        simp
    _ = d := by
        rw [hgroup 16, hgroup 12, hgroup 8, List.take_append_drop]

theorem Uuid.hyphenated_injective : Function.Injective Uuid.hyphenated := by
  intro a b hab
  have hdigits : hexDigits a.toNat 32 = hexDigits b.toNat 32 := by
    rw [← Uuid.filter_hyphenated, ← Uuid.filter_hyphenated, hab]
  have hmod := hexDigits_inj hdigits
  have hlt : ∀ id : Uuid, id.toNat < 16 ^ 32 := fun id => id.isLt
  rw [Nat.mod_eq_of_lt (hlt a), Nat.mod_eq_of_lt (hlt b)] at hmod
  exact BitVec.eq_of_toNat_eq hmod

/-! ## The JSON of requests and responses -/

/-- The JSON of a text. -/
def jsonText (s : String) : Json := .str s.toList

/-- The JSON of an id. -/
def jsonUuid (id : Uuid) : Json := .str (Uuid.hyphenated id)

/-- The JSON of an optional value. -/
def jsonOption {α : Type} (toJson : α → Json) : Option α → Json
  | none => .null
  | some a => toJson a

/-- The JSON of 32 bytes: an array of numbers. -/
def jsonBytes32 (b : Bytes32) : Json := .arr (b.toList.map fun x => .num x.toNat)

/-- The name of an action on the wire. -/
def VaultAction.name : VaultAction → String
  | unlock => "unlock"
  | list => "list"
  | read => "read"
  | create => "create"
  | update => "update"
  | delete => "delete"
  | passwd => "passwd"
  | pair => "pair"

/-- The JSON of a request. -/
def AuthRequest.toJson (req : AuthRequest) : Json :=
  .obj [("pairing_id".toList, jsonUuid req.pairingId),
    ("request_id".toList, jsonUuid req.requestId),
    ("correlation_code".toList, .num req.correlationCode),
    ("action".toList, jsonText req.action.name),
    ("entry_title".toList, jsonOption jsonText req.entryTitle),
    ("unlock_share_requested".toList, .bool req.unlockShareRequested),
    ("timestamp".toList, .num req.timestamp)]

/-- `AuthResponseForSigning`: the JSON of a response without its
signature. -/
def AuthResponse.toJsonForSigning (resp : AuthResponse) : Json :=
  .obj [("pairing_id".toList, jsonUuid resp.pairingId),
    ("request_id".toList, jsonUuid resp.requestId),
    ("correlation_code".toList, .num resp.correlationCode),
    ("action".toList, jsonText resp.action.name),
    ("approved".toList, .bool resp.approved),
    ("unlock_share".toList, jsonOption jsonBytes32 resp.unlockShare),
    ("timestamp".toList, .num resp.timestamp)]

/-- **`canonical_approval_payload`.** Serialising these types does not
fail. -/
def canonicalApprovalPayload (req : AuthRequest) (resp : AuthResponse) : String :=
  String.ofList (Json.render (.obj [("domain".toList, jsonText "ferusa-approval"),
    ("version".toList, .num 3), ("request".toList, req.toJson),
    ("response".toList, resp.toJsonForSigning)]))

/-- `verify_approval_signature`. -/
def verifyApprovalSignature [Crypto] (publicKeyDer : Bytes) (req : AuthRequest)
    (resp : AuthResponse) : Bool :=
  Crypto.verifyEcdsa publicKeyDer (canonicalApprovalPayload req resp) resp.signature

/-! ## The payload determines what was signed -/

theorem jsonText_injective : Function.Injective jsonText := by
  intro s t h
  exact String.toList_injective (Json.str.inj h)

theorem jsonUuid_injective : Function.Injective jsonUuid := by
  intro a b h
  exact Uuid.hyphenated_injective (Json.str.inj h)

theorem jsonBytes32_injective : Function.Injective jsonBytes32 := by
  intro a b h
  have hmap : a.toList.map (fun x => Json.num x.toNat) =
      b.toList.map (fun x => Json.num x.toNat) := Json.arr.inj h
  have hlist : a.toList = b.toList :=
    List.map_injective_iff.mpr (fun x y hxy => UInt8.toNat.inj (Json.num.inj hxy)) hmap
  exact Vector.toList_inj.mp hlist

/-- An optional value whose JSON is never `null`. -/
theorem jsonOption_injective {α : Type} {toJson : α → Json}
    (hinj : Function.Injective toJson) (hnull : ∀ a, toJson a ≠ .null) :
    Function.Injective (jsonOption toJson) := by
  intro a b h
  match a, b with
  | none, none => rfl
  | none, some b => exact absurd h.symm (hnull b)
  | some a, none => exact absurd h (hnull a)
  | some a, some b => exact congrArg some (hinj h)

theorem VaultAction.name_injective : Function.Injective VaultAction.name := by
  intro a b h
  cases a <;> cases b <;> first | rfl | exact absurd h (by decide)

theorem AuthRequest.toJson_injective : Function.Injective AuthRequest.toJson := by
  intro a b h
  have htitle := jsonOption_injective jsonText_injective (fun a => by simp [jsonText])
  simp only [AuthRequest.toJson, Json.obj.injEq, List.cons.injEq, Prod.mk.injEq, true_and,
    and_true, Json.num.injEq, Json.bool.injEq, jsonUuid_injective.eq_iff,
    jsonText_injective.eq_iff, VaultAction.name_injective.eq_iff, htitle.eq_iff] at h
  obtain ⟨h₁, h₂, h₃, h₄, h₅, h₆, h₇⟩ := h
  cases a
  cases b
  simp_all

/-- The fields of a response that are signed. -/
def AuthResponse.unsigned (resp : AuthResponse) : AuthResponse := { resp with signature := [] }

theorem AuthResponse.toJsonForSigning_inj {a b : AuthResponse}
    (h : a.toJsonForSigning = b.toJsonForSigning) : a.unsigned = b.unsigned := by
  have hshare := jsonOption_injective jsonBytes32_injective (fun a => by simp [jsonBytes32])
  simp only [AuthResponse.toJsonForSigning, Json.obj.injEq, List.cons.injEq, Prod.mk.injEq,
    true_and, and_true, Json.num.injEq, Json.bool.injEq, jsonUuid_injective.eq_iff,
    jsonText_injective.eq_iff, VaultAction.name_injective.eq_iff, hshare.eq_iff] at h
  obtain ⟨h₁, h₂, h₃, h₄, h₅, h₆, h₇⟩ := h
  simp only [AuthResponse.unsigned, h₁, h₂, h₃, h₄, h₅, h₆, h₇]

/-- **The payload determines the request and the response.** -/
theorem canonicalApprovalPayload_inj {req req' : AuthRequest} {resp resp' : AuthResponse}
    (h : canonicalApprovalPayload req resp = canonicalApprovalPayload req' resp') :
    req = req' ∧ resp.unsigned = resp'.unsigned := by
  have hjson := Json.render_injective (String.ofList_injective h)
  simp only [Json.obj.injEq, List.cons.injEq, Prod.mk.injEq, true_and, and_true] at hjson
  exact ⟨AuthRequest.toJson_injective hjson.1, AuthResponse.toJsonForSigning_inj hjson.2⟩

/-- **The two kinds of signed text are disjoint.** -/
theorem canonicalApprovalPayload_ne_pairingReady (req : AuthRequest) (resp : AuthResponse)
    (id : Uuid) : canonicalApprovalPayload req resp ≠ canonicalPairingReadyPayload id := by
  intro h
  have hready : ∀ s : String, ("ferusa-pairing-ready/v4/" ++ s).toList.head? = some 'f' := by
    intro s
    rw [String.toList_append]
    rfl
  have hpayload : (canonicalApprovalPayload req resp).toList.head? = some '\x7b' := by
    rw [canonicalApprovalPayload, String.toList_ofList, Json.render]
    rfl
  have hhead : (canonicalPairingReadyPayload id).toList.head? = some 'f' := hready _
  rw [h, hhead] at hpayload
  exact absurd hpayload (by decide)

/-- The other kind of text determines its pairing. -/
theorem canonicalPairingReadyPayload_injective :
    Function.Injective canonicalPairingReadyPayload := by
  intro id id' h
  have htext : ∀ s s' : String, "ferusa-pairing-ready/v4/" ++ s = "ferusa-pairing-ready/v4/" ++ s' →
      s = s' := by
    intro s s' hs
    have hlist := congrArg String.toList hs
    rw [String.toList_append, String.toList_append] at hlist
    exact String.toList_injective (List.append_cancel_left hlist)
  exact Uuid.hyphenated_injective (String.ofList_injective (htext _ _ h))

/-- **A signature says what was signed**: an approval payload determines the
request and all of the response but its signature, a pairing-ready payload
its pairing, and no text is of both kinds. -/
theorem signed_payload_exact (req req' : AuthRequest) (resp resp' : AuthResponse) (id id' : Uuid) :
    (canonicalApprovalPayload req resp = canonicalApprovalPayload req' resp' →
      req = req' ∧ resp.unsigned = resp'.unsigned) ∧
    canonicalApprovalPayload req resp ≠ canonicalPairingReadyPayload id ∧
    (canonicalPairingReadyPayload id = canonicalPairingReadyPayload id' → id = id') :=
  ⟨canonicalApprovalPayload_inj, canonicalApprovalPayload_ne_pairingReady req resp id,
    fun h => canonicalPairingReadyPayload_injective h⟩

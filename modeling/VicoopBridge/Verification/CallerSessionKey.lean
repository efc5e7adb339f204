import VicoopBridge.Model.CallerBlock

/-! # The key of a caller's sessions

The text of an identity tells the identity, and the sorted texts of the attestations are those of
their set. So two contexts have the same key when they are the same caller's. -/

namespace VicoopBridge.CallerBlock

open Library
open Library.JsonText (Value)

/-! ## What identifies a caller -/

/-- What of an attestation stays the same from request to request. -/
structure SessionIdentity where
  issuer : JsText
  subject : JsText
  method : JsText
  assurance : Option JsText
  provider : Option JsText
  workspaceId : Option JsText
  deriving DecidableEq

def AttestationV2.identity (a : AttestationV2) : SessionIdentity :=
  ⟨a.issuer, a.subject, a.method, a.assurance, a.platform.bind (·.provider),
    a.platform.bind (·.workspaceId)⟩

namespace WireContext

def principalId : WireContext → Option JsText
  | .v1 authenticated _ => authenticated
  | .v2 principal _ _ => principal

def actorId : WireContext → Option JsText
  | .v1 _ _ => none
  | .v2 _ actor _ => actor

def attestations : WireContext → List AttestationV2
  | .v1 _ presented => presented.getD []
  | .v2 _ _ attestations => attestations.getD []

end WireContext

/-! ## The order of texts -/

theorem textLe_total (s t : JsText) : (textLe s t || textLe t s) = true := by
  induction s generalizing t with
  | nil => rfl
  | cons u s ih =>
      cases t with
      | nil => rfl
      | cons v t =>
          rw [textLe, textLe]
          by_cases h : u = v
          · rw [if_pos h, if_pos h.symm]
            exact ih t
          · have hne : u.toNat ≠ v.toNat := fun heq => h (UInt16.toNat_inj.mp heq)
            rw [if_neg h, if_neg (Ne.symm h), Bool.or_eq_true, decide_eq_true_eq,
              decide_eq_true_eq]
            omega

theorem textLe_antisymm {s t : JsText} (h : textLe s t = true) (h' : textLe t s = true) :
    s = t := by
  induction s generalizing t with
  | nil =>
      cases t with
      | nil => rfl
      | cons v t => cases h'
  | cons u s ih =>
      cases t with
      | nil => cases h
      | cons v t =>
          rw [textLe] at h h'
          by_cases heq : u = v
          · rw [if_pos heq] at h
            rw [if_pos heq.symm] at h'
            rw [heq, ih h h']
          · rw [if_neg heq, decide_eq_true_eq] at h
            rw [if_neg (Ne.symm heq), decide_eq_true_eq] at h'
            omega

theorem textLe_trans {s t r : JsText} (h : textLe s t = true) (h' : textLe t r = true) :
    textLe s r = true := by
  induction s generalizing t r with
  | nil => rfl
  | cons u s ih =>
      cases t with
      | nil => cases h
      | cons v t =>
          cases r with
          | nil => cases h'
          | cons w r =>
              rw [textLe] at h h' ⊢
              by_cases huv : u = v
              · rw [if_pos huv] at h
                by_cases hvw : v = w
                · rw [if_pos hvw] at h'
                  rw [if_pos (huv.trans hvw)]
                  exact ih h h'
                · rw [if_neg hvw] at h'
                  rw [if_neg (huv ▸ hvw), huv]
                  exact h'
              · rw [if_neg huv, decide_eq_true_eq] at h
                by_cases hvw : v = w
                · rw [if_neg (hvw ▸ huv), decide_eq_true_eq, ← hvw]
                  exact h
                · rw [if_neg hvw, decide_eq_true_eq] at h'
                  have hne : u ≠ w := by
                    rintro rfl
                    omega
                  rw [if_neg hne, decide_eq_true_eq]
                  omega

/-! ## Values without numbers -/

theorem numberlessFields_append (fields fields' : List (JsText × Value)) :
    JsonText.numberlessFields (fields ++ fields') =
      (JsonText.numberlessFields fields && JsonText.numberlessFields fields') := by
  induction fields with
  | nil => rfl
  | cons f fields ih =>
      obtain ⟨key, value⟩ := f
      rw [List.cons_append, JsonText.numberlessFields, ih, JsonText.numberlessFields,
        Bool.and_assoc]

theorem numberlessItems_iff (items : List Value) :
    JsonText.numberlessItems items = true ↔ ∀ item ∈ items, item.numberless = true := by
  induction items with
  | nil => simp [JsonText.numberlessItems]
  | cons item items ih => simp [JsonText.numberlessItems, ih]

theorem numberlessFields_stringField (key : String) (value : Option JsText) :
    JsonText.numberlessFields (stringField key value) = true := by
  cases value <;> rfl

theorem numberlessFields_objectField {key : String} {value : Option (List (JsText × Value))}
    (h : ∀ fields ∈ value, JsonText.numberlessFields fields = true) :
    JsonText.numberlessFields (objectField key value) = true := by
  cases value with
  | none => rfl
  | some fields =>
      rw [objectField, Option.map_some, Option.toList_some, JsonText.numberlessFields,
        Value.numberless, h fields rfl]
      rfl

theorem numberlessFields_platform (p : Platform) :
    JsonText.numberlessFields p.fields = true := by
  rw [Platform.fields, numberlessFields_append, numberlessFields_stringField,
    numberlessFields_stringField]
  rfl

theorem numberless_sessionAttestation (a : AttestationV2) :
    (sessionAttestation a).numberless = true := by
  have hplatform : ∀ fields ∈ (a.platform.bind Platform.nonEmpty).map Platform.fields,
      JsonText.numberlessFields fields = true := by
    intro fields hfields
    obtain ⟨p, -, rfl⟩ := Option.mem_map.mp hfields
    exact numberlessFields_platform p
  rw [sessionAttestation, Value.numberless]
  simp only [numberlessFields_append, numberlessFields_stringField,
    numberlessFields_objectField hplatform, Bool.and_self]

/-! ## One attestation -/

def identityJson (i : SessionIdentity) : Value :=
  .object (stringField "issuer" (some i.issuer) ++ stringField "subject" (some i.subject) ++
    stringField "method" (some i.method) ++ stringField "assurance" i.assurance ++
    objectField "platform" (if i.provider = none ∧ i.workspaceId = none then none
      else some (stringField "provider" i.provider ++ stringField "workspaceId" i.workspaceId)))

theorem sessionAttestation_eq (a : AttestationV2) :
    sessionAttestation a = identityJson a.identity := by
  have hplatform : (a.platform.bind Platform.nonEmpty).map Platform.fields =
      if a.identity.provider = none ∧ a.identity.workspaceId = none then none
      else some (stringField "provider" a.identity.provider ++
        stringField "workspaceId" a.identity.workspaceId) := by
    rw [AttestationV2.identity]
    cases a.platform with
    | none => rfl
    | some p =>
        obtain ⟨provider, workspaceId⟩ := p
        cases provider <;> cases workspaceId <;> rfl
  rw [sessionAttestation, hplatform]
  rfl

/-- What a property access finds among optional fields. -/
theorem lookup_optional_append {γ : Type} (f : γ → Value) (key key' : JsText) (value : Option γ)
    (rest : List (JsText × Value)) :
    ((value.map fun x => (key, f x)).toList ++ rest).lookup key' =
      if key' = key then (value.map f).or (rest.lookup key') else rest.lookup key' := by
  cases value with
  | none => split <;> rfl
  | some x =>
      rw [Option.map_some, Option.toList_some, List.singleton_append, List.lookup_cons]
      by_cases h : key' = key
      · rw [if_pos h, h]
        simp
      · rw [if_neg h, beq_eq_false_iff_ne.mpr h]

theorem lookup_optional {γ : Type} (f : γ → Value) (key key' : JsText) (value : Option γ) :
    ((value.map fun x => (key, f x)).toList).lookup key' =
      if key' = key then value.map f else none := by
  rw [← List.append_nil (Option.toList _), lookup_optional_append, List.lookup_nil, Option.or_none]

theorem map_string_injective : Function.Injective (Option.map Value.string) :=
  Option.map_injective fun _ _ h => Value.string.inj h

theorem platformFields_inj {p p' : Platform} (h : p.fields = p'.fields) : p = p' := by
  have hprovider := congrArg (List.lookup (JsText.ofAscii "provider")) h
  have hworkspace := congrArg (List.lookup (JsText.ofAscii "workspaceId")) h
  simp +decide only [Platform.fields, stringField, lookup_optional_append, lookup_optional,
    if_true, if_false, Option.or_none] at hprovider hworkspace
  obtain ⟨provider, workspaceId⟩ := p
  obtain ⟨provider', workspaceId'⟩ := p'
  obtain rfl : provider = provider' := map_string_injective hprovider
  obtain rfl : workspaceId = workspaceId' := map_string_injective hworkspace
  rfl

theorem platformJson_inj {p p' : Platform}
    (h : (if p.provider = none ∧ p.workspaceId = none then none else some p.fields) =
      if p'.provider = none ∧ p'.workspaceId = none then none else some p'.fields) : p = p' := by
  by_cases hp : p.provider = none ∧ p.workspaceId = none
  · by_cases hp' : p'.provider = none ∧ p'.workspaceId = none
    · obtain ⟨provider, workspaceId⟩ := p
      obtain ⟨provider', workspaceId'⟩ := p'
      obtain ⟨rfl, rfl⟩ := hp
      obtain ⟨rfl, rfl⟩ := hp'
      rfl
    · rw [if_pos hp, if_neg hp'] at h
      cases h
  · by_cases hp' : p'.provider = none ∧ p'.workspaceId = none
    · rw [if_neg hp, if_pos hp'] at h
      cases h
    · rw [if_neg hp, if_neg hp'] at h
      exact platformFields_inj (Option.some.inj h)

/-- The text of an attestation keeps what identifies it. -/
theorem identityJson_inj {i i' : SessionIdentity} (h : identityJson i = identityJson i') :
    i = i' := by
  have hfields := Value.object.inj h
  have hissuer := congrArg (List.lookup (JsText.ofAscii "issuer")) hfields
  have hsubject := congrArg (List.lookup (JsText.ofAscii "subject")) hfields
  have hmethod := congrArg (List.lookup (JsText.ofAscii "method")) hfields
  have hassurance := congrArg (List.lookup (JsText.ofAscii "assurance")) hfields
  have hplatform := congrArg (List.lookup (JsText.ofAscii "platform")) hfields
  simp +decide only [List.append_assoc, stringField, objectField, lookup_optional_append,
    lookup_optional, if_true, if_false, Option.or_none] at hissuer hsubject hmethod
  simp +decide only [List.append_assoc, stringField, objectField, lookup_optional_append,
    lookup_optional, if_true, if_false, Option.or_none] at hassurance hplatform
  obtain ⟨issuer, subject, method, assurance, provider, workspaceId⟩ := i
  obtain ⟨issuer', subject', method', assurance', provider', workspaceId'⟩ := i'
  obtain rfl : issuer = issuer' := Option.some.inj (map_string_injective hissuer)
  obtain rfl : subject = subject' := Option.some.inj (map_string_injective hsubject)
  obtain rfl : method = method' := Option.some.inj (map_string_injective hmethod)
  obtain rfl : assurance = assurance' := map_string_injective hassurance
  have hsame : Platform.mk provider workspaceId = ⟨provider', workspaceId'⟩ :=
    platformJson_inj (Option.map_injective (fun _ _ heq => Value.object.inj heq) hplatform)
  obtain ⟨rfl, rfl⟩ := Platform.mk.inj hsame
  rfl

/-! ## The sorted attestations -/

/-- The key of the entry is the text of its value. -/
def Named (e : JsText × Value) : Prop := e.2.numberless = true ∧ e.1 = JsonText.compact e.2

theorem Named.value_eq {e e' : JsText × Value} (h : Named e) (h' : Named e') (hkey : e.1 = e'.1) :
    e = e' := by
  have hvalue : e.2 = e'.2 := by
    rw [h.2, h'.2] at hkey
    exact JsonText.compact_inj h.1 h'.1 hkey
  exact Prod.ext hkey hvalue

/-- Under names that tell the values, a map holds just the entries that were put into it. -/
theorem mem_entries_foldl {es : List (JsText × Value)} {m : InsertionMap JsText Value}
    (hes : ∀ e ∈ es, Named e) (hm : ∀ e ∈ m.entries, Named e) (e : JsText × Value) :
    e ∈ (es.foldl (fun m e => m.set e.1 e.2) m).entries ↔ e ∈ m.entries ∨ e ∈ es := by
  induction es generalizing m with
  | nil => simp
  | cons first rest ih =>
      have hfirst := hes first List.mem_cons_self
      have hset : ∀ e, e ∈ (m.set first.1 first.2).entries ↔ e = first ∨ e ∈ m.entries := by
        intro e
        rw [← Prod.mk.eta (p := e), InsertionMap.mem_entries_iff, InsertionMap.get?_set]
        by_cases hkey : first.1 = e.1
        · rw [if_pos hkey]
          constructor
          · intro hvalue
            exact .inl (Prod.ext hkey.symm (Option.some.inj hvalue).symm)
          · rintro (rfl | hmem)
            · rfl
            · rw [hfirst.value_eq (hm e hmem) hkey]
        · rw [if_neg hkey, ← InsertionMap.mem_entries_iff]
          constructor
          · exact .inr
          · rintro (heq | hmem)
            · exact absurd (congrArg Prod.fst heq).symm hkey
            · exact hmem
      rw [List.foldl_cons, ih (fun e he => hes e (List.mem_cons_of_mem _ he)), hset, List.mem_cons,
        or_comm (a := e = first), or_assoc]
      intro e he
      rcases (hset e).mp he with rfl | hmem
      · exact hfirst
      · exact hm e hmem

def entryOf (a : AttestationV2) : JsText × Value :=
  (JsonText.compact (sessionAttestation a), sessionAttestation a)

theorem named_entryOf (a : AttestationV2) : Named (entryOf a) :=
  ⟨numberless_sessionAttestation a, rfl⟩

theorem named_of_mem_map {attestations : List AttestationV2} {e : JsText × Value}
    (h : e ∈ attestations.map entryOf) : Named e := by
  obtain ⟨a, -, rfl⟩ := List.mem_map.mp h
  exact named_entryOf a

theorem mem_sortedEntries (attestations : List AttestationV2) (e : JsText × Value) :
    e ∈ sortedEntries attestations ↔ e ∈ attestations.map entryOf := by
  rw [sortedEntries, List.mem_mergeSort]
  have hes : ∀ e ∈ attestations.map entryOf, Named e := fun e he => named_of_mem_map he
  have hnone : ∀ e ∈ (InsertionMap.empty : InsertionMap JsText Value).entries, Named e :=
    fun e he => by cases he
  refine (mem_entries_foldl hes hnone e).trans ?_
  simp [InsertionMap.empty]

theorem nodup_keys_sortedEntries (attestations : List AttestationV2) :
    (sortedEntries attestations).Nodup := by
  rw [sortedEntries, (List.mergeSort_perm _ _).nodup_iff]
  exact List.Nodup.of_map Prod.fst (InsertionMap.nodup _)

theorem pairwise_sortedEntries (attestations : List AttestationV2) :
    (sortedEntries attestations).Pairwise fun e e' => textLe e.1 e'.1 = true := by
  have hsorted := @List.pairwise_mergeSort (JsText × Value) (fun e e' => textLe e.1 e'.1)
    (fun _ _ _ h h' => textLe_trans h h') fun e e' => textLe_total e.1 e'.1
  exact hsorted _

/-- The sorted entries are those of the set of the attestations. -/
theorem sortedEntries_eq_iff (attestations attestations' : List AttestationV2) :
    sortedEntries attestations = sortedEntries attestations' ↔
      ∀ e, e ∈ attestations.map entryOf ↔ e ∈ attestations'.map entryOf := by
  constructor
  · intro h e
    rw [← mem_sortedEntries, h, mem_sortedEntries]
  · intro h
    have hsame : ∀ e, e ∈ sortedEntries attestations ↔ e ∈ sortedEntries attestations' := by
      intro e
      rw [mem_sortedEntries, h, mem_sortedEntries]
    refine List.Perm.eq_of_pairwise (fun e e' he he' hle hle' => ?_)
      (pairwise_sortedEntries attestations) (pairwise_sortedEntries attestations')
      ((List.perm_ext_iff_of_nodup (nodup_keys_sortedEntries _) (nodup_keys_sortedEntries _)).mpr
        hsame)
    exact (named_of_mem_map ((mem_sortedEntries _ e).mp he)).value_eq
      (named_of_mem_map ((mem_sortedEntries _ e').mp he')) (textLe_antisymm hle hle')

def sessionValues (attestations : List AttestationV2) : List Value :=
  (sortedEntries attestations).map Prod.snd

theorem sessionValues_eq_iff (attestations attestations' : List AttestationV2) :
    sessionValues attestations = sessionValues attestations' ↔
      ∀ i, i ∈ attestations.map AttestationV2.identity ↔
        i ∈ attestations'.map AttestationV2.identity := by
  have hentries : ∀ {l : List AttestationV2} {e}, e ∈ sortedEntries l →
      e = (JsonText.compact e.2, e.2) := fun he =>
    Prod.ext (named_of_mem_map ((mem_sortedEntries _ _).mp he)).2 rfl
  have hvalues : sessionValues attestations = sessionValues attestations' ↔
      sortedEntries attestations = sortedEntries attestations' := by
    refine ⟨fun h => ?_, fun h => by rw [sessionValues, h, sessionValues]⟩
    have hback : ∀ l : List AttestationV2, sortedEntries l =
        (sessionValues l).map fun v => (JsonText.compact v, v) := by
      intro l
      rw [sessionValues, List.map_map]
      conv_lhs => rw [← List.map_id (sortedEntries l)]
      exact List.map_congr_left fun e he => hentries he
    rw [hback, h, ← hback]
  have hidentity : ∀ (l : List AttestationV2) (a : AttestationV2),
      entryOf a ∈ l.map entryOf ↔ a.identity ∈ l.map AttestationV2.identity := by
    intro l a
    rw [List.mem_map, List.mem_map]
    refine exists_congr fun b => and_congr_right fun _ => ⟨fun h => ?_, fun h => ?_⟩
    · have hvalue := congrArg Prod.snd h
      simp only [entryOf, sessionAttestation_eq] at hvalue
      exact identityJson_inj hvalue
    · simp only [entryOf, sessionAttestation_eq, h]
  rw [hvalues, sortedEntries_eq_iff]
  constructor
  · intro h i
    constructor
    · intro hi
      obtain ⟨a, ha, rfl⟩ := List.mem_map.mp hi
      exact (hidentity attestations' a).mp ((h _).mp (List.mem_map_of_mem ha))
    · intro hi
      obtain ⟨a, ha, rfl⟩ := List.mem_map.mp hi
      exact (hidentity attestations a).mp ((h _).mpr (List.mem_map_of_mem ha))
  · intro h e
    constructor
    · intro he
      obtain ⟨a, ha, rfl⟩ := List.mem_map.mp he
      exact (hidentity attestations' a).mpr ((h _).mp (List.mem_map_of_mem ha))
    · intro he
      obtain ⟨a, ha, rfl⟩ := List.mem_map.mp he
      exact (hidentity attestations a).mpr ((h _).mpr (List.mem_map_of_mem ha))

/-! ## The key -/

theorem canonical_eq (caller : WireContext) : caller.canonical =
    ⟨caller.principalId, caller.actorId, (some caller.attestations).filter (· ≠ [])⟩ := by
  have hfilter : ∀ attestations : Option (List AttestationV2), attestations.filter (· ≠ []) =
      (some (attestations.getD [])).filter (· ≠ []) := by
    intro attestations
    cases attestations <;> rfl
  cases caller with
  | v1 authenticated presented =>
      rw [WireContext.canonical, hfilter]
      rfl
  | v2 principal actor attestations =>
      rw [WireContext.canonical, hfilter]
      rfl

theorem canonical_eq_empty (caller : WireContext) : caller.canonical = {} ↔
    caller.principalId = none ∧ caller.actorId = none ∧ caller.attestations = [] := by
  rw [canonical_eq]
  cases caller.attestations with
  | nil => simp
  | cons first rest => simp

theorem normalizeCallerContext_eq {caller : WireContext} (h : caller.valid = true) :
    normalizeCallerContext (some caller) =
      if caller.principalId = none ∧ caller.actorId = none ∧ caller.attestations = [] then none
      else some caller.canonical := by
  simp only [normalizeCallerContext, h, Bool.not_true, Bool.false_eq_true, if_false,
    canonical_eq_empty]

def identityFields (principal actor : Option JsText) (values : List Value) :
    List (JsText × Value) :=
  objectField "principal" (principal.map fun id => stringField "id" (some id)) ++
    objectField "actor" (actor.map fun id => stringField "id" (some id)) ++
    if values = [] then [] else [(JsText.ofAscii "attestations", .array values)]

theorem callerContextSessionKey_eq {caller : WireContext} (h : caller.valid = true) :
    callerContextSessionKey (some caller) =
      if caller.principalId = none ∧ caller.actorId = none ∧ caller.attestations = [] then []
      else JsonText.compact (.object (identityFields caller.principalId caller.actorId
        (sessionValues caller.attestations))) := by
  have hgetD : ∀ as : List AttestationV2, ((some as).filter (· ≠ [])).getD [] = as := by
    intro as
    cases as with
    | nil => rfl
    | cons first rest => rfl
  rw [callerContextSessionKey, normalizeCallerContext_eq h]
  split
  · next heq =>
      split at heq
      · next hnone => rw [if_pos hnone]
      · cases heq
  · next canonical heq =>
      split at heq
      · cases heq
      · next hsome =>
          obtain rfl := Option.some.inj heq
          rw [if_neg hsome, sessionIdentity, canonical_eq]
          dsimp only
          rw [hgetD]
          rfl

theorem numberless_identityFields (principal actor : Option JsText)
    (attestations : List AttestationV2) :
    (Value.object (identityFields principal actor (sessionValues attestations))).numberless =
      true := by
  have hid : ∀ (id : Option JsText) (key : String), JsonText.numberlessFields
      (objectField key (id.map fun id => stringField "id" (some id))) = true := by
    intro id key
    refine numberlessFields_objectField fun fields hfields => ?_
    obtain ⟨s, -, rfl⟩ := Option.mem_map.mp hfields
    exact numberlessFields_stringField "id" (some s)
  have hvalues : JsonText.numberlessItems (sessionValues attestations) = true := by
    refine (numberlessItems_iff _).mpr fun v hv => ?_
    obtain ⟨e, he, rfl⟩ := List.mem_map.mp hv
    exact (named_of_mem_map ((mem_sortedEntries _ e).mp he)).1
  rw [Value.numberless, identityFields, numberlessFields_append, numberlessFields_append, hid, hid]
  split
  · rfl
  · rw [JsonText.numberlessFields, Value.numberless, hvalues]
    rfl

theorem idField_injective : Function.Injective
    (Option.map fun id : JsText => stringField "id" (some id)) :=
  Option.map_injective fun _ _ h => by
    have hvalue := congrArg Prod.snd (List.cons_eq_cons.mp h).1
    exact Value.string.inj hvalue

/-- The fields tell the caller and the attestations. -/
theorem identityFields_inj {principal principal' actor actor' : Option JsText}
    {values values' : List Value}
    (h : identityFields principal actor values = identityFields principal' actor' values') :
    principal = principal' ∧ actor = actor' ∧ values = values' := by
  have hlist : ∀ values : List Value,
      (if values = [] then [] else [(JsText.ofAscii "attestations", Value.array values)]) =
        ((if values = [] then none else some values).map fun vs =>
          (JsText.ofAscii "attestations", Value.array vs)).toList := by
    intro values
    split <;> rfl
  have hprincipal := congrArg (List.lookup (JsText.ofAscii "principal")) h
  have hactor := congrArg (List.lookup (JsText.ofAscii "actor")) h
  have hvalues := congrArg (List.lookup (JsText.ofAscii "attestations")) h
  simp +decide only [identityFields, hlist, List.append_assoc, objectField,
    lookup_optional_append, lookup_optional, if_true, if_false, Option.or_none]
    at hprincipal hactor hvalues
  have hobject : Function.Injective (Option.map Value.object) :=
    Option.map_injective fun _ _ h => Value.object.inj h
  refine ⟨idField_injective (hobject hprincipal), idField_injective (hobject hactor), ?_⟩
  have hsome : (if values = [] then none else some values) =
      if values' = [] then none else some values' :=
    Option.map_injective (fun _ _ h => Value.array.inj h) hvalues
  by_cases hnil : values = []
  · by_cases hnil' : values' = []
    · rw [hnil, hnil']
    · rw [if_pos hnil, if_neg hnil'] at hsome
      cases hsome
  · by_cases hnil' : values' = []
    · rw [if_neg hnil, if_pos hnil'] at hsome
      cases hsome
    · rw [if_neg hnil, if_neg hnil'] at hsome
      exact Option.some.inj hsome

theorem compact_object_ne_nil (fields : List (JsText × Value)) :
    JsonText.compact (.object fields) ≠ [] := by
  cases fields with
  | nil =>
      rw [JsonText.compact, JsonText.compactWith]
      exact List.cons_ne_nil _ _
  | cons f fields =>
      rw [JsonText.compact, JsonText.compactWith]
      exact List.cons_ne_nil _ _

/-- Two contexts have the same key just when they name the same principal and the same actor and
the same set of attested identities. So neither the order of the attestations, nor their copies,
nor what they hold of one request counts, nor the version of the context. -/
theorem callerContextSessionKey_eq_iff {caller caller' : WireContext} (h : caller.valid = true)
    (h' : caller'.valid = true) :
    callerContextSessionKey (some caller) = callerContextSessionKey (some caller') ↔
      caller.principalId = caller'.principalId ∧ caller.actorId = caller'.actorId ∧
        ∀ i, i ∈ caller.attestations.map AttestationV2.identity ↔
          i ∈ caller'.attestations.map AttestationV2.identity := by
  have hempty : ∀ attestations : List AttestationV2,
      (∀ i, i ∈ attestations.map AttestationV2.identity ↔
        i ∈ ([] : List AttestationV2).map AttestationV2.identity) ↔ attestations = [] := by
    intro attestations
    cases attestations with
    | nil => simp
    | cons first rest =>
        refine ⟨fun h => ?_, fun h => by cases h⟩
        cases (h first.identity).mp (List.mem_map_of_mem List.mem_cons_self)
  rw [callerContextSessionKey_eq h, callerContextSessionKey_eq h']
  by_cases hnone : caller.principalId = none ∧ caller.actorId = none ∧ caller.attestations = []
  · rw [if_pos hnone]
    obtain ⟨hp, ha, has⟩ := hnone
    rw [hp, ha, has]
    constructor
    · intro heq
      by_cases hnone' : caller'.principalId = none ∧ caller'.actorId = none ∧
          caller'.attestations = []
      · rw [hnone'.1, hnone'.2.1, hnone'.2.2]
        exact ⟨rfl, rfl, fun _ => Iff.rfl⟩
      · rw [if_neg hnone'] at heq
        exact absurd heq.symm (compact_object_ne_nil _)
    · rintro ⟨hp', ha', has'⟩
      have hnil := (hempty _).mp fun i => (has' i).symm
      rw [if_pos ⟨hp'.symm, ha'.symm, hnil⟩]
  · rw [if_neg hnone]
    by_cases hnone' : caller'.principalId = none ∧ caller'.actorId = none ∧
        caller'.attestations = []
    · rw [if_pos hnone']
      refine ⟨fun heq => absurd heq (compact_object_ne_nil _), ?_⟩
      rintro ⟨hp, ha, has⟩
      rw [hnone'.2.2] at has
      exact absurd ⟨hp.trans hnone'.1, ha.trans hnone'.2.1, (hempty _).mp has⟩ hnone
    · rw [if_neg hnone', ← sessionValues_eq_iff]
      constructor
      · intro heq
        have hvalue := JsonText.compact_inj (numberless_identityFields _ _ _)
          (numberless_identityFields _ _ _) heq
        exact identityFields_inj (Value.object.inj hvalue)
      · rintro ⟨hp, ha, has⟩
        rw [hp, ha, has]

/-- The same caller in both versions, with another request's evidence and a copy. -/
theorem callerContextSessionKey_eq_iff_versions :
    callerContextSessionKey (some (.v1 (some [112]) (some [⟨[49], [105], [115], [109], none,
        some {}, none, none⟩]))) =
      callerContextSessionKey (some (.v2 (some [112]) none (some [⟨[50], [105], [115], [109],
        none, none, some (some [116]), none⟩, ⟨[51], [105], [115], [109], none, none, none,
        none⟩]))) := by
  refine (callerContextSessionKey_eq_iff (by decide) (by decide)).mpr ⟨rfl, rfl, fun i => ?_⟩
  simp [WireContext.attestations, AttestationV2.identity]

end VicoopBridge.CallerBlock

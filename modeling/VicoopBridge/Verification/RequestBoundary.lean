import VicoopBridge.Model.RequestBoundary
import VicoopBridge.Verification.TaskStore.Transactions

/-! # What of a request's metadata crosses the bridge

Both strippers are described by what a property access finds behind them. The boundary is
their composition with the stamps of the server. -/

namespace VicoopBridge

namespace JsonObject

variable (o : JsonObject) (key : String)

theorem field_filter (p : String → Bool) :
    field (o.filter fun f => p f.1) key = if p key then field o key else none := by
  induction o with
  | nil => simp
  | cons f rest ih =>
      rw [List.filter_cons, field_cons]
      by_cases hf : p f.1
      · rw [if_pos hf, field_cons, ih]
        by_cases hkey : key = f.1
        · simp [hkey, hf]
        · simp [hkey]
      · rw [if_neg hf, ih]
        by_cases hkey : key = f.1
        · simp [hkey, hf]
        · simp [hkey]

theorem field_map_assign (value : Json) (h : has o key = true) :
    field (o.map fun f => if f.1 = key then (key, value) else f) key = some value := by
  induction o with
  | nil => simp [has] at h
  | cons f rest ih =>
      rw [List.map_cons, field_cons]
      by_cases hf : f.1 = key
      · simp [hf]
      · have hrest : has rest key = true := by
          simpa [has, field_cons, Ne.symm hf] using h
        simp [hf, Ne.symm hf, ih hrest]

@[simp] theorem field_set_self (value : Json) : field (set o key value) key = some value := by
  unfold set
  split
  · rename_i h
    exact field_map_assign o key value h
  · rename_i h
    have hnone : field o key = none := by simpa [has] using h
    rw [field_append, hnone, field_cons]
    simp

theorem field_set (key' : String) (value : Json) :
    field (set o key value) key' = if key' = key then some value else field o key' := by
  by_cases h : key' = key
  · subst h
    simp
  · rw [field_set_of_ne o key value h, if_neg h]

/-- Setting a property again changes nothing. -/
theorem set_set_self (value : Json) : set (set o key value) key value = set o key value := by
  have hhas : has (set o key value) key = true := by simp [has]
  have hcopy : ∀ l : JsonObject, (∀ f ∈ l, f.1 = key → f = (key, value)) →
      l.map (fun f => if f.1 = key then (key, value) else f) = l := by
    intro l hl
    conv_rhs => rw [← List.map_id l]
    refine List.map_congr_left fun f hf => ?_
    by_cases hkey : f.1 = key
    · simp [hkey, ← hl f hf hkey]
    · simp [hkey]
  rw [show set (set o key value) key value =
    (set o key value).map fun f => if f.1 = key then (key, value) else f from if_pos hhas]
  refine hcopy _ fun f hf hkey => ?_
  unfold set at hf
  split at hf
  · obtain ⟨g, -, rfl⟩ := List.mem_map.mp hf
    by_cases hg : g.1 = key
    · simp [hg]
    · simp [hg] at hkey
  · rename_i hnot
    rcases List.mem_append.mp hf with hmem | hmem
    · have hsome : (field o f.1).isSome := by
        rw [field, List.lookup_isSome_iff]
        exact ⟨f, hmem, by simp⟩
      rw [hkey] at hsome
      exact absurd hsome hnot
    · exact List.mem_singleton.mp hmem

theorem field_assign (fields : JsonObject) :
    field (assign o fields) key = (field fields.reverse key).or (field o key) := by
  induction fields generalizing o with
  | nil => rfl
  | cons f rest ih =>
      rw [assign, List.foldl_cons]
      change field (assign (o.set f.1 f.2) rest) key = _
      rw [ih, field_set, List.reverse_cons, field_append, field_cons, field_nil, Option.or_assoc]
      by_cases h : key = f.1 <;> simp [h]

theorem object?_eq_some {fields : JsonObject} :
    o.object? key = some fields ↔ o.field key = some (.obj fields) := by
  unfold object?
  cases h : o.field key with
  | none => simp
  | some value => cases value <;> simp [Json.record]

theorem object?_set (key' : String) (fields : JsonObject) :
    object? (set o key (.obj fields)) key' =
      if key' = key then some fields else o.object? key' := by
  simp only [object?, field_set]
  by_cases h : key' = key
  · rw [if_pos h, if_pos h]
    rfl
  · rw [if_neg h, if_neg h]

theorem object?_without (keys : List String) :
    object? (without o keys) key = if key ∈ keys then none else o.object? key := by
  simp only [object?, field_without]
  by_cases h : key ∈ keys <;> simp [h]

end JsonObject

namespace RequestBoundary

open JsonObject

/-! ## The two strippers -/

theorem field_nonEmpty_getD (o : JsonObject) (key : String) :
    field (o.nonEmpty.getD []) key = field o key := by
  unfold nonEmpty
  split
  · rename_i h
    simp [h]
  · rfl

/-- The boundary's own metadata behind `stripCallerSuppliedInternalKeys`. -/
theorem metadata_stripCallerSuppliedInternalKeys (message : JsonObject) :
    (stripCallerSuppliedInternalKeys message).object? "metadata" =
      (message.object? "metadata").bind fun metadata =>
        nonEmpty (metadata.filter fun f => ¬ f.1.startsWith "_") := by
  unfold stripCallerSuppliedInternalKeys
  cases h : message.object? "metadata" with
  | none => simpa using h
  | some metadata =>
      dsimp only [Option.bind_some]
      cases hkept : nonEmpty (metadata.filter fun f => ¬ f.1.startsWith "_") with
      | none => simp [object?_without]
      | some kept => simp [object?_set]

theorem field_stripCallerSuppliedInternalKeys {key : String} (h : key ≠ "metadata")
    (message : JsonObject) :
    field (stripCallerSuppliedInternalKeys message) key = field message key := by
  unfold stripCallerSuppliedInternalKeys
  cases message.object? "metadata" with
  | none => rfl
  | some metadata =>
      dsimp only
      cases nonEmpty (metadata.filter fun f => ¬ f.1.startsWith "_") with
      | none => simp [field_without, h]
      | some kept => exact field_set_of_ne _ _ _ h

theorem strip_eq_self {message : JsonObject} (h : message.object? "metadata" = none) :
    stripCallerSuppliedInternalKeys message = message := by
  simp only [stripCallerSuppliedInternalKeys, h]

theorem strip_eq_set {message metadata kept : JsonObject}
    (h : message.object? "metadata" = some metadata)
    (hkept : nonEmpty (metadata.filter fun f => ¬ f.1.startsWith "_") = some kept) :
    stripCallerSuppliedInternalKeys message = message.set "metadata" (.obj kept) := by
  simp only [stripCallerSuppliedInternalKeys, h, hkept]

theorem nonEmpty_eq_some {o kept : JsonObject} (h : o.nonEmpty = some kept) : o = kept := by
  unfold nonEmpty at h
  split at h
  · exact absurd h (by simp)
  · exact Option.some.inj h

theorem stripCallerSuppliedInternalKeys_idem (message : JsonObject) :
    stripCallerSuppliedInternalKeys (stripCallerSuppliedInternalKeys message) =
      stripCallerSuppliedInternalKeys message := by
  have hmetadata := metadata_stripCallerSuppliedInternalKeys message
  cases h : message.object? "metadata" with
  | none => rw [strip_eq_self h, strip_eq_self h]
  | some metadata =>
      rw [h, Option.bind_some] at hmetadata
      cases hkept : nonEmpty (metadata.filter fun f => ¬ f.1.startsWith "_") with
      | none => exact strip_eq_self (hmetadata.trans hkept)
      | some kept =>
          have hagain : nonEmpty (kept.filter fun f => ¬ f.1.startsWith "_") = some kept := by
            have hfilter := nonEmpty_eq_some hkept
            have hself : kept.filter (fun f => ¬ f.1.startsWith "_") = kept := by
              refine List.filter_eq_self.mpr fun f hf => ?_
              rw [← hfilter] at hf
              exact (List.mem_filter.mp hf).2
            rw [hself, ← hfilter, hkept, hfilter]
          rw [strip_eq_set (hmetadata.trans hkept) hagain, strip_eq_set h hkept]
          exact set_set_self _ _ _

/-! ## What leaves the server -/

/-- The names under which the bridge itself tells an agent of the caller and its scope. -/
def transportKeys : List String :=
  ["caller", "callerContext", "caller_context", "executionScope", "execution_scope"]

/-- Identity evidence goes, and with it an object that held nothing else. -/
def withoutEvidence : Option Json → Option Json
  | some (.obj fields) =>
      (JsonObject.without fields [legacyCarrierKey, vcCarrierKey]).nonEmpty.map .obj
  | value => value

/-- The entry of the metadata that leaves the server, if it does. -/
def leaving (f : String × Json) : Option (String × Json) :=
  if f.1.startsWith "_" then none
  else if f.1 ∈ transportKeys then none
  else if f.1 = "mentionable" then (withoutEvidence (some f.2)).map fun value => (f.1, value)
  else some f

theorem stripInternalMetadata_eq (metadata : Option JsonObject) :
    stripInternalMetadata metadata = metadata.bind fun m => nonEmpty (m.filterMap leaving) := by
  unfold stripInternalMetadata
  congr 1
  funext m
  congr 1
  refine List.filterMap_congr fun f _ => ?_
  obtain ⟨key, value⟩ := f
  unfold leaving
  dsimp only
  by_cases hinternal : key.startsWith "_" = true
  · rw [if_pos hinternal, if_pos hinternal]
  · rw [if_neg hinternal, if_neg hinternal]
    change (if key ∈ transportKeys then none else _) = _
    by_cases htransport : key ∈ transportKeys
    · rw [if_pos htransport, if_pos htransport]
    · rw [if_neg htransport, if_neg htransport]
      by_cases hmentionable : key = "mentionable"
      · subst hmentionable
        rw [if_pos rfl]
        cases value with
        | obj fields =>
            simp only [withoutEvidence, legacyCarrierKey, vcCarrierKey, Option.map_map]
            rfl
        | null => rfl
        | bool b => rfl
        | num n => rfl
        | str s => rfl
        | arr items => rfl
      · rw [if_neg hmentionable]
        split
        · exact absurd rfl hmentionable
        · rfl

theorem withoutEvidence_idem (value : Option Json) :
    withoutEvidence (withoutEvidence value) = withoutEvidence value := by
  cases value with
  | none => rfl
  | some value =>
      cases value with
      | obj fields =>
          simp only [withoutEvidence]
          cases h : (JsonObject.without fields [legacyCarrierKey, vcCarrierKey]).nonEmpty with
          | none => rfl
          | some kept =>
              have hkept := nonEmpty_eq_some h
              have hself : JsonObject.without kept [legacyCarrierKey, vcCarrierKey] = kept := by
                refine List.filter_eq_self.mpr fun f hf => ?_
                rw [← hkept] at hf
                exact (List.mem_filter.mp hf).2
              simp only [Option.map_some]
              rw [hself, ← hkept, h, hkept]
              rfl
      | null => rfl
      | bool b => rfl
      | num n => rfl
      | str s => rfl
      | arr items => rfl

theorem leaving_leaving {f g : String × Json} (h : leaving f = some g) : leaving g = some g := by
  unfold leaving at h
  by_cases hinternal : f.1.startsWith "_" = true
  · simp [hinternal] at h
  · rw [if_neg hinternal] at h
    by_cases htransport : f.1 ∈ transportKeys
    · simp [htransport] at h
    · rw [if_neg htransport] at h
      by_cases hmentionable : f.1 = "mentionable"
      · rw [if_pos hmentionable] at h
        obtain ⟨value, hvalue, rfl⟩ := Option.map_eq_some_iff.mp h
        have hagain := withoutEvidence_idem (some f.2)
        rw [hvalue] at hagain
        unfold leaving
        rw [if_neg hinternal, if_neg htransport, if_pos hmentionable, hagain]
        rfl
      · rw [if_neg hmentionable] at h
        obtain rfl := Option.some.inj h
        unfold leaving
        rw [if_neg hinternal, if_neg htransport, if_neg hmentionable]

theorem filterMap_leaving_idem (o : JsonObject) :
    (o.filterMap leaving).filterMap leaving = o.filterMap leaving := by
  rw [List.filterMap_filterMap]
  refine List.filterMap_congr fun f _ => ?_
  cases h : leaving f with
  | none => rfl
  | some g => exact leaving_leaving h

theorem stripInternalMetadata_idem (metadata : Option JsonObject) :
    stripInternalMetadata (stripInternalMetadata metadata) = stripInternalMetadata metadata := by
  rw [stripInternalMetadata_eq, stripInternalMetadata_eq]
  cases metadata with
  | none => rfl
  | some m =>
      simp only [Option.bind_some]
      cases h : nonEmpty (m.filterMap leaving) with
      | none => rfl
      | some kept =>
          have hkept := nonEmpty_eq_some h
          rw [Option.bind_some, ← hkept, filterMap_leaving_idem, h, hkept]

/-- The key may leave the server. -/
def passes (key : String) : Bool := !key.startsWith "_" && decide (key ∉ transportKeys)

theorem leaving_of_ne {f : String × Json} (h : f.1 ≠ "mentionable") :
    leaving f = if passes f.1 then some f else none := by
  unfold leaving passes
  by_cases hinternal : f.1.startsWith "_" = true
  · simp [hinternal]
  · by_cases htransport : f.1 ∈ transportKeys <;> simp [hinternal, htransport, h]

theorem startsWith_mentionable : "mentionable".startsWith "_" = false := by decide +kernel

theorem leaving_mentionable {f : String × Json} (h : f.1 = "mentionable") :
    leaving f = (withoutEvidence (some f.2)).map fun value => (f.1, value) := by
  unfold leaving
  rw [if_neg (by rw [h, startsWith_mentionable]; exact Bool.false_ne_true),
    if_neg (by rw [h]; decide), if_pos h]

/-- Metadata without evidence loses whole entries only. -/
theorem filterMap_leaving_of_clean {o : JsonObject}
    (h : ∀ f ∈ o, f.1 = "mentionable" → withoutEvidence (some f.2) = some f.2) :
    o.filterMap leaving = o.filter fun f => passes f.1 := by
  rw [← List.filterMap_eq_filter]
  refine List.filterMap_congr fun f hf => ?_
  by_cases hmentionable : f.1 = "mentionable"
  · have hpasses : passes f.1 = true := by
      rw [hmentionable, passes, startsWith_mentionable]
      decide
    rw [leaving_mentionable hmentionable, h f hf hmentionable, Option.map_some, Option.guard,
      if_pos hpasses]
  · rw [leaving_of_ne hmentionable, Option.guard]

/-! ## Through the boundary -/

/-- What the boundary leaves of the caller's own metadata. -/
def callerView (metadata : JsonObject) (key : String) : Option Json :=
  if key.startsWith "_" then none
  else if key = "mentionable" then
    match metadata.field key with
    | some (.obj fields) =>
        (JsonObject.without fields [vcCarrierKey, legacyCarrierKey]).nonEmpty.map .obj
    | _ => none
  else metadata.field key

theorem field_stripIdentityCarrier (metadata : JsonObject) (key : String) :
    field ((stripIdentityCarrier (some (.obj metadata))).getD []) key =
      if key = "mentionable" then
        match metadata.field key with
        | some (.obj fields) =>
            (JsonObject.without fields [vcCarrierKey, legacyCarrierKey]).nonEmpty.map .obj
        | _ => none
      else metadata.field key := by
  have hwithout : field ((JsonObject.without metadata ["mentionable"]).nonEmpty.getD []) key =
      if key = "mentionable" then none else metadata.field key := by
    rw [field_nonEmpty_getD, field_without]
    simp
  unfold stripIdentityCarrier
  dsimp only
  cases hmentionable : metadata.field "mentionable" with
  | none =>
      by_cases hkey : key = "mentionable"
      · simp [hkey, hmentionable]
      · simp [hkey]
  | some value =>
      cases value with
      | obj fields =>
          dsimp only
          cases hclean : (JsonObject.without fields [vcCarrierKey, legacyCarrierKey]).nonEmpty with
          | none =>
              dsimp only
              rw [hwithout]
              by_cases hkey : key = "mentionable"
              · subst hkey
                simp [hmentionable, hclean]
              · simp [hkey]
          | some clean =>
              dsimp only [Option.getD_some]
              rw [field_set]
              by_cases hkey : key = "mentionable"
              · subst hkey
                simp [hmentionable, hclean]
              · simp [hkey]
      | _ =>
          dsimp only
          rw [hwithout]
          by_cases hkey : key = "mentionable"
          · subst hkey
            simp [hmentionable]
          · simp [hkey]

theorem mem_set {o : JsonObject} {key : String} {value : Json} {f : String × Json}
    (h : f ∈ o.set key value) : f = (key, value) ∨ f.1 ≠ key ∧ f ∈ o := by
  unfold JsonObject.set at h
  split at h
  · obtain ⟨g, hg, rfl⟩ := List.mem_map.mp h
    by_cases hkey : g.1 = key
    · exact .inl (by simp [hkey])
    · exact .inr (by simp [hkey, hg])
  · rename_i hnot
    rcases List.mem_append.mp h with hmem | hmem
    · refine .inr ⟨fun hkey => hnot ?_, hmem⟩
      rw [has, field, List.lookup_isSome_iff]
      exact ⟨f, hmem, by simp [hkey]⟩
    · exact .inl (List.mem_singleton.mp hmem)

theorem mem_assign {o fields : JsonObject} {f : String × Json} (h : f ∈ o.assign fields) :
    f ∈ fields ∨ f ∈ o := by
  induction fields generalizing o with
  | nil => exact .inr h
  | cons g rest ih =>
      rcases ih (o := o.set g.1 g.2) h with hmem | hmem
      · exact .inl (List.mem_cons_of_mem _ hmem)
      · rcases mem_set hmem with rfl | ⟨-, hold⟩
        · exact .inl List.mem_cons_self
        · exact .inr hold

/-- The metadata holds no identity evidence where the server would look for it. -/
def Clean (o : JsonObject) : Prop :=
  ∀ f ∈ o, f.1 = "mentionable" → withoutEvidence (some f.2) = some f.2

theorem Clean.assign {o fields : JsonObject} (h : Clean o)
    (hfields : ∀ f ∈ fields, f.1 ≠ "mentionable") : Clean (o.assign fields) := by
  intro f hf hmentionable
  rcases mem_assign hf with hmem | hmem
  · exact absurd hmentionable (hfields f hmem)
  · exact h f hmem hmentionable

theorem clean_nonEmpty_without (o : JsonObject) :
    Clean ((JsonObject.without o ["mentionable"]).nonEmpty.getD []) := by
  intro f hf hmentionable
  unfold nonEmpty at hf
  split at hf
  · simp at hf
  · have hnot := (List.mem_filter.mp hf).2
    simp [hmentionable] at hnot

theorem clean_stripIdentityCarrier (metadata : Option Json) :
    Clean ((stripIdentityCarrier metadata).getD []) := by
  unfold stripIdentityCarrier
  split
  · rename_i metadata
    dsimp only
    split
    · rename_i hnone
      intro f hf hmentionable
      have hsome : (field metadata f.1).isSome := by
        rw [field, List.lookup_isSome_iff]
        exact ⟨f, hf, by simp⟩
      rw [hmentionable, hnone] at hsome
      exact absurd hsome (by simp)
    · rename_i fields _
      split
      · exact clean_nonEmpty_without metadata
      · rename_i clean hclean
        intro f hf hmentionable
        rcases mem_set hf with rfl | ⟨hne, -⟩
        · have hfields := nonEmpty_eq_some hclean
          have hself : JsonObject.without clean [legacyCarrierKey, vcCarrierKey] = clean := by
            refine List.filter_eq_self.mpr fun g hg => ?_
            rw [← hfields] at hg
            simpa [or_comm] using (List.mem_filter.mp hg).2
          simp only [withoutEvidence, hself]
          rw [← hfields, hclean, hfields]
          rfl
        · exact absurd hmentionable hne
    · exact clean_nonEmpty_without metadata
  · intro f hf
    simp at hf

/-! ## The stamps of the server -/

theorem internal_authorizationMetadata (caller : Option VerifiedCaller) :
    ∀ f ∈ authorizationMetadata caller, f.1 ∈ internalMetadataKeys := by
  intro f hf
  cases caller with
  | none =>
      obtain rfl := List.mem_singleton.mp hf
      decide
  | some caller =>
      simp only [authorizationMetadata, List.mem_append, List.mem_singleton, Option.mem_toList,
        Option.map_eq_some_iff] at hf
      rcases hf with ((rfl | ⟨id, -, rfl⟩) | ⟨grant, -, rfl⟩) | ⟨grant, -, rfl⟩ <;>
        simp [internalMetadataKeys]

theorem internal_attestationMetadata (caller : Option VerifiedCaller) (metadata : JsonObject) :
    ∀ f ∈ attestationMetadata caller metadata, f.1 = identityVcPresentedMetadataKey := by
  intro f hf
  unfold attestationMetadata at hf
  split at hf
  · simp at hf
  · obtain rfl := List.mem_singleton.mp hf
    rfl

theorem startsWith_of_internal {key : String} (h : key ∈ internalMetadataKeys) :
    key.startsWith "_" = true := by
  have hall : ∀ k ∈ internalMetadataKeys, k.startsWith "_" = true := by decide +kernel
  exact hall key h

theorem field_eq_none_of_forall {o : JsonObject} {key : String} (h : ∀ f ∈ o, f.1 ≠ key) :
    field o key = none := by
  rw [field, List.lookup_eq_none_iff]
  intro f hf
  exact bne_iff_ne.mpr (Ne.symm (h f hf))

/-- Stamps of the server have no other keys than its own. -/
theorem field_assign_of_not_internal {o fields : JsonObject} {key : String}
    (hfields : ∀ f ∈ fields, f.1 ∈ internalMetadataKeys) (hkey : key.startsWith "_" = false) :
    field (o.assign fields) key = field o key := by
  rw [field_assign, field_eq_none_of_forall, Option.none_or]
  intro f hf heq
  have := startsWith_of_internal (hfields f (List.mem_reverse.mp hf))
  rw [heq, hkey] at this
  exact absurd this Bool.false_ne_true

theorem presented_internal : identityVcPresentedMetadataKey ∈ internalMetadataKeys := by decide

/-! ## A message through the boundary -/

theorem metadata_mergeExtensions (message : JsonObject) (requested : List String) :
    (mergeExtensions message requested).field "metadata" = message.field "metadata" := by
  unfold mergeExtensions
  split
  · rfl
  · exact field_set_of_ne _ _ _ (by decide)

theorem metadata_normalizeRequestParts (message : JsonObject) :
    (normalizeRequestParts message).field "metadata" = message.field "metadata" := by
  unfold normalizeRequestParts
  split
  · exact field_set_of_ne _ _ _ (by decide)
  · rfl

theorem object?_congr {o o' : JsonObject} {key : String} (h : o.field key = o'.field key) :
    o.object? key = o'.object? key := by
  unfold object?
  rw [h]

theorem metadata_replaceMetadata (message : JsonObject) (metadata : Option JsonObject) :
    (replaceMetadata message metadata).object? "metadata" = metadata := by
  cases metadata with
  | none => simp [replaceMetadata, object?_without]
  | some metadata => simp [replaceMetadata, object?_set]

/-- The metadata of the message before it is stamped. -/
theorem metadata_prepareIdentity (identities : JsonObject → List Json) (message : JsonObject) :
    ((prepareIdentityVcAtBoundary identities message).object? "metadata").getD [] =
      ((stripIdentityCarrier (message.field "metadata")).getD []).assign
        (if identities message = [] then []
          else [(identityVcPresentedMetadataKey, .arr (identities message))]) := by
  unfold prepareIdentityVcAtBoundary
  dsimp only
  split
  · rename_i hnone
    rw [metadata_replaceMetadata, if_pos hnone]
    rfl
  · rename_i hsome
    rw [object?_set, if_pos rfl, metadata_replaceMetadata, if_neg hsome]
    rfl

/-- What a scrubbed message still has of the caller's metadata. -/
theorem field_carrier_strip (message : JsonObject) (key : String) :
    field ((stripIdentityCarrier
      ((stripCallerSuppliedInternalKeys message).field "metadata")).getD []) key =
        callerView ((message.object? "metadata").getD []) key := by
  have hstripped := metadata_stripCallerSuppliedInternalKeys message
  cases h : message.object? "metadata" with
  | none =>
      rw [strip_eq_self h, Option.getD_none]
      have hview : callerView [] key = none := by
        unfold callerView
        split
        · rfl
        · split <;> rfl
      rw [hview]
      unfold object? at h
      cases hfield : message.field "metadata" with
      | none => rfl
      | some value =>
          cases value with
          | obj fields => simp [hfield, Json.record] at h
          | null => rfl
          | bool b => rfl
          | num n => rfl
          | str s => rfl
          | arr items => rfl
  | some metadata =>
      rw [h, Option.bind_some] at hstripped
      have hfilter := field_filter metadata key (fun k => ¬ k.startsWith "_")
      have hmentionable := field_filter metadata "mentionable" (fun k => ¬ k.startsWith "_")
      rw [if_pos (by simp [startsWith_mentionable])] at hmentionable
      rw [Option.getD_some]
      cases hkept : nonEmpty (metadata.filter fun f => ¬ f.1.startsWith "_") with
      | none =>
          rw [hkept] at hstripped
          have hnil : metadata.filter (fun f => ¬ f.1.startsWith "_") = [] := by
            unfold nonEmpty at hkept
            split at hkept
            · assumption
            · exact absurd hkept (by simp)
          rw [hnil, field_nil] at hfilter hmentionable
          have hfield : (stripCallerSuppliedInternalKeys message).field "metadata" = none := by
            simp only [stripCallerSuppliedInternalKeys, h, hkept]
            rw [field_without]
            simp
          rw [hfield]
          unfold callerView
          cases hkey : key.startsWith "_" with
          | true => rfl
          | false =>
              simp only [hkey, Bool.false_eq_true, not_false_eq_true, decide_true, if_true]
                at hfilter
              simp only [Bool.false_eq_true, if_false]
              by_cases hsame : key = "mentionable"
              · rw [if_pos hsame, hsame, ← hmentionable]
                rfl
              · rw [if_neg hsame, ← hfilter]
                rfl
      | some kept =>
          have hlist := nonEmpty_eq_some hkept
          rw [hkept] at hstripped
          rw [(object?_eq_some _ _).mp hstripped, field_stripIdentityCarrier, ← hlist, hfilter]
          unfold callerView
          cases hkey : key.startsWith "_" with
          | true =>
              have hne : key ≠ "mentionable" := by
                rintro rfl
                exact Bool.false_ne_true (startsWith_mentionable.symm.trans hkey)
              simp [hne]
          | false => simp

/-- What the verifier has accepted, under the key it goes to. -/
def presented (accepted : List Json) : JsonObject :=
  if accepted = [] then [] else [(identityVcPresentedMetadataKey, .arr accepted)]

/-- What the server puts under its own keys, whatever the caller has sent under them. -/
def stamps (accepted : List Json) (caller : Option VerifiedCaller) : JsonObject :=
  ((presented accepted).assign (authorizationMetadata caller)).assign
    (attestationMetadata caller (presented accepted))

theorem internal_presented (accepted : List Json) :
    ∀ f ∈ presented accepted, f.1 ∈ internalMetadataKeys := by
  intro f hf
  unfold presented at hf
  split at hf
  · simp at hf
  · obtain rfl := List.mem_singleton.mp hf
    exact presented_internal

theorem internal_attestations (caller : Option VerifiedCaller) (metadata : JsonObject) :
    ∀ f ∈ attestationMetadata caller metadata, f.1 ∈ internalMetadataKeys := by
  intro f hf
  rw [internal_attestationMetadata caller metadata f hf]
  exact presented_internal

theorem internal_stamps (accepted : List Json) (caller : Option VerifiedCaller) :
    ∀ f ∈ stamps accepted caller, f.1 ∈ internalMetadataKeys := by
  intro f hf
  rcases mem_assign hf with h | h
  · exact internal_attestations _ _ f h
  · rcases mem_assign h with h | h
    · exact internal_authorizationMetadata caller f h
    · exact internal_presented accepted f h

theorem field_reverse_presented (accepted : List Json) (key : String) :
    field (presented accepted).reverse key = field (presented accepted) key := by
  unfold presented
  split <;> rfl

theorem attestationMetadata_congr (caller : Option VerifiedCaller) {metadata metadata' : JsonObject}
    (h : metadata.field identityVcPresentedMetadataKey =
      metadata'.field identityVcPresentedMetadataKey) :
    attestationMetadata caller metadata = attestationMetadata caller metadata' := by
  unfold attestationMetadata
  rw [h]

theorem callerView_internal {key : String} (h : key.startsWith "_" = true)
    (metadata : JsonObject) : callerView metadata key = none := by
  rw [callerView, if_pos h]

/-- The metadata of a prepared message: the server's stamps, and the rest of the caller's. -/
theorem field_metadata_prepareMessage (identities : JsonObject → List Json)
    (requested : List String) (caller : Option VerifiedCaller) (message : JsonObject)
    (key : String) :
    field (((prepareMessage identities requested caller message).object? "metadata").getD []) key =
      if key.startsWith "_" then
        field (stamps (identities
          (stripCallerSuppliedInternalKeys (mergeExtensions message requested))) caller) key
      else callerView ((message.object? "metadata").getD []) key := by
  generalize hscrubbed :
    stripCallerSuppliedInternalKeys (mergeExtensions message requested) = scrubbed
  have hview : ∀ key, field ((stripIdentityCarrier (scrubbed.field "metadata")).getD []) key =
      callerView ((message.object? "metadata").getD []) key := by
    intro key
    rw [← hscrubbed, field_carrier_strip,
      object?_congr (metadata_mergeExtensions message requested)]
  have hbefore : ((normalizeRequestParts (prepareIdentityVcAtBoundary identities scrubbed)).object?
      "metadata").getD [] =
        ((stripIdentityCarrier (scrubbed.field "metadata")).getD []).assign
          (presented (identities scrubbed)) := by
    rw [object?_congr (metadata_normalizeRequestParts _), metadata_prepareIdentity]
    rfl
  have hattestations : attestationMetadata caller
      (((stripIdentityCarrier (scrubbed.field "metadata")).getD []).assign
        (presented (identities scrubbed))) =
      attestationMetadata caller (presented (identities scrubbed)) := by
    refine attestationMetadata_congr caller ?_
    rw [field_assign, hview, callerView_internal (startsWith_of_internal presented_internal),
      Option.or_none, field_reverse_presented]
  rw [prepareMessage]
  rw [hscrubbed, object?_set, if_pos rfl, Option.getD_some, hbefore, hattestations]
  cases hkey : key.startsWith "_" with
  | true =>
      simp only [if_true, stamps, field_assign, hview, callerView_internal hkey, Option.or_none,
        field_reverse_presented]
  | false =>
      rw [field_assign_of_not_internal (internal_attestations _ _) hkey,
        field_assign_of_not_internal (internal_authorizationMetadata _) hkey,
        field_assign_of_not_internal (internal_presented _) hkey, hview]
      simp

theorem field_metadata_prepareRequest (identities : JsonObject → List Json)
    (requested : List String) (caller : Option VerifiedCaller) {request message : JsonObject}
    (h : request.object? "message" = some message) (key : String) :
    field (((prepareRequest identities requested caller request).object? "metadata").getD []) key =
      if key.startsWith "_" then field (authorizationMetadata caller).reverse key
      else field ((request.object? "metadata").getD []) key := by
  have hstripped : field (((stripCallerSuppliedInternalKeys request).object? "metadata").getD [])
      key = if key.startsWith "_" then none
        else field ((request.object? "metadata").getD []) key := by
    rw [metadata_stripCallerSuppliedInternalKeys]
    cases request.object? "metadata" with
    | none => simp
    | some metadata =>
        rw [Option.bind_some, Option.getD_some, field_nonEmpty_getD,
          field_filter metadata key fun k => ¬ k.startsWith "_"]
        cases key.startsWith "_" <;> rfl
  simp only [prepareRequest, h]
  rw [object?_set, if_pos rfl, object?_set, if_neg (by decide), Option.getD_some]
  cases hkey : key.startsWith "_" with
  | true =>
      rw [hkey] at hstripped
      rw [field_assign, hstripped]
      simp
  | false =>
      rw [field_assign_of_not_internal (internal_authorizationMetadata _) hkey, hstripped, hkey]
      simp

theorem message_prepareRequest (identities : JsonObject → List Json) (requested : List String)
    (caller : Option VerifiedCaller) {request message : JsonObject}
    (h : request.object? "message" = some message) :
    (prepareRequest identities requested caller request).object? "message" =
      some (prepareMessage identities requested caller message) := by
  simp only [prepareRequest, h]
  rw [object?_set, if_neg (by decide), object?_set, if_pos rfl]

/-! ## What the agent is sent -/

theorem clean_metadata_prepareMessage (identities : JsonObject → List Json)
    (requested : List String) (caller : Option VerifiedCaller) (message : JsonObject) :
    Clean (((prepareMessage identities requested caller message).object? "metadata").getD []) := by
  have hstamp : ∀ {fields : JsonObject}, (∀ f ∈ fields, f.1 ∈ internalMetadataKeys) →
      ∀ f ∈ fields, f.1 ≠ "mentionable" := by
    intro fields hfields f hf hmentionable
    have hinternal := hfields f hf
    rw [hmentionable] at hinternal
    exact absurd hinternal (by decide)
  rw [prepareMessage]
  rw [object?_set, if_pos rfl, Option.getD_some, object?_congr (metadata_normalizeRequestParts _),
    metadata_prepareIdentity]
  exact (((clean_stripIdentityCarrier _).assign (hstamp (internal_presented _))).assign
    (hstamp (internal_authorizationMetadata _))).assign (hstamp (internal_attestations _ _))

theorem Clean.without {o : JsonObject} (h : Clean o) (keys : List String) :
    Clean (JsonObject.without o keys) := fun f hf => h f (List.mem_filter.mp hf).1

/-- The message's metadata in `task.assign`: the caller's own, less the internal names. -/
theorem field_forwardMetadata (identities : JsonObject → List Json) (requested : List String)
    (caller : Option VerifiedCaller) (message : JsonObject) (key : String) :
    field ((forwardMetadata (prepareMessage identities requested caller message)).getD []) key =
      if passes key then callerView ((message.object? "metadata").getD []) key else none := by
  have hclean := clean_metadata_prepareMessage identities requested caller message
  have hfield := field_metadata_prepareMessage identities requested caller message key
  have hsome : ∃ metadata,
      (prepareMessage identities requested caller message).object? "metadata" = some metadata := by
    rw [prepareMessage]
    rw [object?_set, if_pos rfl]
    exact ⟨_, rfl⟩
  obtain ⟨metadata, hmetadata⟩ := hsome
  rw [hmetadata, Option.getD_some] at hclean hfield
  rw [forwardMetadata, stripInternalMetadata_eq, hmetadata, Option.map_some, Option.bind_some,
    field_nonEmpty_getD, filterMap_leaving_of_clean (hclean.without _), field_filter, field_without]
  cases hkey : key.startsWith "_" with
  | true => simp [passes, hkey]
  | false =>
      have hne : key ≠ identityVcPresentedMetadataKey := by
        rintro rfl
        have hinternal : identityVcPresentedMetadataKey.startsWith "_" = true :=
          startsWith_of_internal (by simp [internalMetadataKeys])
        exact Bool.false_ne_true (hkey.symm.trans hinternal)
      rw [hkey] at hfield
      simp only [List.mem_singleton, hne, if_false, hfield, Bool.false_eq_true]

theorem exists_of_mem_mapM {α β ε : Type} {f : α → Except ε β} {xs : List α} {ys : List β}
    (h : xs.mapM f = .ok ys) {y : β} (hy : y ∈ ys) : ∃ x ∈ xs, f x = .ok y := by
  induction xs generalizing ys with
  | nil =>
      obtain rfl := Except.ok.inj h
      simp at hy
  | cons x xs ih =>
      rw [List.mapM_cons] at h
      cases hx : f x with
      | error e => simp [hx, bind, Except.bind] at h
      | ok value =>
          cases hrest : xs.mapM f with
          | error e => simp [hx, hrest, bind, Except.bind] at h
          | ok values =>
              simp only [hx, hrest, bind, Except.bind, pure, Except.pure, Except.ok.injEq] at h
              subst h
              rcases List.mem_cons.mp hy with rfl | hmem
              · exact ⟨x, List.mem_cons_self, hx⟩
              · obtain ⟨x', hx', hvalue⟩ := ih hrest hmem
                exact ⟨x', List.mem_cons_of_mem _ hx', hvalue⟩

theorem mem_of_mapM_record {parts : List Json} {records : List JsonObject}
    (h : parts.mapM Json.record = some records) {record : JsonObject} (hmem : record ∈ records) :
    .obj record ∈ parts := by
  induction parts generalizing records with
  | nil =>
      obtain rfl := Option.some.inj h
      simp at hmem
  | cons part parts ih =>
      rw [List.mapM_cons] at h
      obtain ⟨first, hfirst, h⟩ := Option.bind_eq_some_iff.mp h
      obtain ⟨rest, hrest, h⟩ := Option.bind_eq_some_iff.mp h
      obtain rfl := Option.some.inj h
      rcases List.mem_cons.mp hmem with rfl | hmem
      · cases part with
        | obj fields =>
            obtain rfl := Option.some.inj hfirst
            exact List.mem_cons_self
        | _ => simp [Json.record] at hfirst
      · exact List.mem_cons_of_mem _ (ih hrest hmem)

/-- A part that was not of the wire's shape is built anew. -/
theorem keys_partToWire {part wire : JsonObject} (hkind : part.has "kind" = false)
    (h : partToWire part = .ok wire) :
    ∀ f ∈ wire, f.1 ∈ ["kind", "text", "data", "file"] := by
  have hnone : part.string? "kind" = none := by
    have hfield : part.field "kind" = none := by simpa [has] using hkind
    rw [JsonObject.string?, hfield]
  unfold partToWire at h
  rw [if_neg (by simp [hnone])] at h
  intro f hf
  split at h
  · obtain rfl := Except.ok.inj h
    simp only [List.mem_cons, List.not_mem_nil, or_false] at hf
    rcases hf with rfl | rfl <;> simp
  · obtain rfl := Except.ok.inj h
    simp only [List.mem_cons, List.not_mem_nil, or_false] at hf
    rcases hf with rfl | rfl <;> simp
  · exact absurd h (by simp)
  · dsimp only at h
    split at h
    · obtain rfl := Except.ok.inj h
      simp only [List.mem_cons, List.not_mem_nil, or_false] at hf
      rcases hf with rfl | rfl <;> simp
    · exact absurd h (by simp)

/-- The parts in `task.assign` have none of the caller's other fields. -/
theorem keys_forwardParts (identities : JsonObject → List Json) (requested : List String)
    (caller : Option VerifiedCaller) (message : JsonObject) {parts : List JsonObject}
    (h : forwardParts (prepareMessage identities requested caller message) = some (.ok parts)) :
    ∀ part ∈ parts, ∀ f ∈ part, f.1 ∈ ["kind", "text", "data", "file"] := by
  intro part hpart
  have hparts : ∃ base : JsonObject,
      (prepareMessage identities requested caller message).field "parts" =
        (normalizeRequestParts base).field "parts" := by
    rw [prepareMessage]
    rw [field_set_of_ne _ _ _ (by decide)]
    exact ⟨_, rfl⟩
  obtain ⟨base, hbase⟩ := hparts
  unfold forwardParts at h
  rw [hbase] at h
  unfold normalizeRequestParts at h
  cases hfield : base.field "parts" with
  | none => simp [hfield] at h
  | some value =>
      cases value with
      | arr items =>
          rw [hfield] at h
          dsimp only at h
          rw [field_set_self] at h
          dsimp only at h
          obtain ⟨records, hrecords, hwire⟩ := Option.map_eq_some_iff.mp h
          obtain ⟨record, hrecord, hpartToWire⟩ := exists_of_mem_mapM hwire hpart
          obtain ⟨item, -, hitem⟩ := List.mem_map.mp (mem_of_mapM_record hrecords hrecord)
          cases item with
          | obj original =>
              obtain rfl := Json.obj.inj hitem
              exact keys_partToWire (has_kind_normalizePart original) hpartToWire
          | _ => exact absurd hitem (by simp)
      | _ => simp [hfield] at h

/-- The caller's names in the metadata of an object. -/
def own (o : JsonObject) (key : String) : Option Json := ((o.object? "metadata").getD []).field key

/-- What the agent gets of a message. -/
structure Forwarded (message prepared : JsonObject) : Prop where
  metadata : ∀ key, ((forwardMetadata prepared).getD []).field key =
    if passes key then callerView ((message.object? "metadata").getD []) key else none
  parts : ∀ parts, forwardParts prepared = some (.ok parts) →
    ∀ part ∈ parts, ∀ f ∈ part, f.1 ∈ ["kind", "text", "data", "file"]

/-- What the task of the request shows: at its creation, and of the message in its history. -/
structure Returned (request message request' message' : JsonObject) : Prop where
  created : ∀ (store : TaskStore) (id freshContext : String) (contextId : Option String)
    (key : String),
    (((store.createTask id freshContext contextId (request'.object? "metadata")).1.metadata).getD
      []).field key =
        if key.startsWith "_" ∨ key = executionMarkerKey then none else own request key
  history : ∀ stored : Message, stored.metadata = message'.object? "metadata" → ∀ key,
    ((stripMessageMetadata stored).metadata.getD []).field key =
      if key.startsWith "_" then none
      else callerView ((message.object? "metadata").getD []) key

/-- What the boundary leaves as it came. -/
structure Kept (request message request' message' : JsonObject) : Prop where
  ofRequest : ∀ key, key ∉ ["metadata", "message"] → request'.field key = request.field key
  ofMessage : ∀ key, key ∉ ["metadata", "extensions", "parts"] →
    message'.field key = message.field key
  parts : message'.field "parts" = (normalizeRequestParts message).field "parts"

theorem field_withExecutionMarker_none (metadata : Option JsonObject) (key : String) :
    field ((withExecutionMarker metadata none).getD []) key =
      if key = executionMarkerKey then none else field (metadata.getD []) key := by
  rw [withExecutionMarker, field_nonEmpty_getD, field_without]
  simp

theorem field_stripTaskMetadata (metadata : Option JsonObject) (key : String) :
    field ((stripTaskMetadata metadata).getD []) key =
      if key ∈ internalMetadataKeys then none else field (metadata.getD []) key := by
  cases metadata with
  | none => simp [stripTaskMetadata]
  | some m => rw [stripTaskMetadata, Option.bind_some, field_nonEmpty_getD, field_without,
      Option.getD_some]

theorem field_eq_none_of_not_internal {o : JsonObject}
    (h : ∀ f ∈ o, f.1 ∈ internalMetadataKeys) {key : String} (hkey : key ∉ internalMetadataKeys) : field o key = none := by
  refine field_eq_none_of_forall fun f hf heq => hkey ?_
  rw [← heq]
  exact h f hf

/-- The stamps do not outlive the request. -/
theorem ite_internal_stamps {o : JsonObject} (h : ∀ f ∈ o, f.1 ∈ internalMetadataKeys)
    (key : String) (value : Option Json) :
    (if key ∈ internalMetadataKeys then none
      else if key.startsWith "_" then field o key else value) =
        if key.startsWith "_" then none else value := by
  by_cases hinternal : key ∈ internalMetadataKeys
  · rw [if_pos hinternal, if_pos (startsWith_of_internal hinternal)]
  · rw [if_neg hinternal, field_eq_none_of_not_internal h hinternal]

theorem returned_of_prepared (identities : JsonObject → List Json) (requested : List String)
    (caller : Option VerifiedCaller) {request message : JsonObject}
    (h : request.object? "message" = some message) :
    Returned request message (prepareRequest identities requested caller request)
      (prepareMessage identities requested caller message) where
  created store id freshContext contextId key := by
    have hstamps : ∀ f ∈ (authorizationMetadata caller).reverse, f.1 ∈ internalMetadataKeys :=
      fun f hf => internal_authorizationMetadata caller f (List.mem_reverse.mp hf)
    rw [TaskStore.createTask]
    dsimp only
    rw [field_withExecutionMarker_none, field_stripTaskMetadata,
      field_metadata_prepareRequest identities requested caller h,
      ite_internal_stamps hstamps]
    by_cases hmarker : key = executionMarkerKey
    · simp [hmarker]
    · simp [hmarker, own]
  history stored hstored key := by
    rw [stripMessageMetadata]
    dsimp only
    rw [field_nonEmpty_getD, field_without, hstored, field_metadata_prepareMessage,
      ite_internal_stamps (internal_stamps _ _)]

theorem field_normalizeRequestParts {key : String} (h : key ≠ "parts") (message : JsonObject) :
    (normalizeRequestParts message).field key = message.field key := by
  unfold normalizeRequestParts
  split
  · exact field_set_of_ne _ _ _ h
  · rfl

theorem parts_normalizeRequestParts {message message' : JsonObject}
    (h : message.field "parts" = message'.field "parts") :
    (normalizeRequestParts message).field "parts" =
      (normalizeRequestParts message').field "parts" := by
  unfold normalizeRequestParts
  rw [← h]
  cases hparts : message.field "parts" with
  | none =>
      dsimp only
      rw [← h, hparts]
  | some value =>
      cases value with
      | arr items =>
          dsimp only
          rw [field_set_self, field_set_self]
      | _ =>
          dsimp only
          rw [← h, hparts]

theorem field_replaceMetadata {key : String} (h : key ≠ "metadata") (message : JsonObject)
    (metadata : Option JsonObject) :
    (replaceMetadata message metadata).field key = message.field key := by
  cases metadata with
  | none => simp [replaceMetadata, field_without, h]
  | some metadata => exact field_set_of_ne _ _ _ h

theorem field_prepareIdentity {key : String} (h : key ≠ "metadata")
    (identities : JsonObject → List Json) (message : JsonObject) :
    (prepareIdentityVcAtBoundary identities message).field key = message.field key := by
  unfold prepareIdentityVcAtBoundary
  dsimp only
  split
  · exact field_replaceMetadata h _ _
  · rw [field_set_of_ne _ _ _ h]
    exact field_replaceMetadata h _ _

theorem field_mergeExtensions {key : String} (h : key ≠ "extensions") (message : JsonObject)
    (requested : List String) :
    (mergeExtensions message requested).field key = message.field key := by
  unfold mergeExtensions
  split
  · rfl
  · exact field_set_of_ne _ _ _ h

/-- Before the parts are normalized only the metadata and the extensions have changed. -/
theorem field_before_parts {key : String} (hmetadata : key ≠ "metadata")
    (hextensions : key ≠ "extensions") (identities : JsonObject → List Json)
    (requested : List String) (message : JsonObject) :
    (prepareIdentityVcAtBoundary identities
      (stripCallerSuppliedInternalKeys (mergeExtensions message requested))).field key =
        message.field key := by
  rw [field_prepareIdentity hmetadata, field_stripCallerSuppliedInternalKeys hmetadata,
    field_mergeExtensions hextensions]

theorem kept_of_prepared (identities : JsonObject → List Json) (requested : List String)
    (caller : Option VerifiedCaller) {request message : JsonObject}
    (h : request.object? "message" = some message) :
    Kept request message (prepareRequest identities requested caller request)
      (prepareMessage identities requested caller message) where
  ofRequest key hkey := by
    simp only [List.mem_cons, List.not_mem_nil, or_false, not_or] at hkey
    simp only [prepareRequest, h]
    rw [field_set_of_ne _ _ _ hkey.1, field_set_of_ne _ _ _ hkey.2,
      field_stripCallerSuppliedInternalKeys hkey.1]
  ofMessage key hkey := by
    simp only [List.mem_cons, List.not_mem_nil, or_false, not_or] at hkey
    rw [prepareMessage, field_set_of_ne _ _ _ hkey.1, field_normalizeRequestParts hkey.2.2,
      field_before_parts hkey.1 hkey.2.1]
  parts := by
    rw [prepareMessage, field_set_of_ne _ _ _ (by decide)]
    have hkey : "parts" ≠ "metadata" ∧ "parts" ≠ "extensions" := by decide
    exact parts_normalizeRequestParts
      (field_before_parts hkey.1 hkey.2 identities requested message)

/-- The boundary prepares the request of the body, and no other body. -/
theorem requestOf_prepare (transport : A2ATransport) (identities : JsonObject → List Json)
    (requested : List String) (caller : Option VerifiedCaller) {body : Json}
    {request : JsonObject} (h : requestOf transport body = some request) :
    requestOf transport (prepareAgentRequestBody transport identities requested caller body) =
      some (prepareRequest identities requested caller request) := by
  cases transport with
  | jsonrpc =>
      cases body with
      | obj fields =>
          simp only [requestOf] at h
          simp only [prepareAgentRequestBody, h, requestOf]
          rw [object?_set, if_pos rfl]
      | _ => simp [requestOf] at h
  | httpJson =>
      cases body with
      | obj fields =>
          obtain rfl := Option.some.inj h
          rfl
      | _ => simp [requestOf] at h

/-- A request without a message stays as it came. -/
theorem requestOf_prepare_of_no_message (transport : A2ATransport)
    (identities : JsonObject → List Json) (requested : List String)
    (caller : Option VerifiedCaller) {body : Json} (h : messageOf transport body = none) :
    requestOf transport (prepareAgentRequestBody transport identities requested caller body) =
      requestOf transport body := by
  cases hrequest : requestOf transport body with
  | some request =>
      have hmessage : request.object? "message" = none := by
        simpa [messageOf, hrequest] using h
      rw [requestOf_prepare transport identities requested caller hrequest, prepareRequest,
        hmessage]
  | none =>
      cases body with
      | obj fields =>
          cases transport with
          | jsonrpc =>
              simp only [requestOf] at hrequest
              simp only [prepareAgentRequestBody, hrequest, requestOf]
          | httpJson => simp [requestOf] at hrequest
      | _ => cases transport <;> rfl

/-- A caller that poses as another one, in the request and in its message. -/
def forged : JsonObject :=
  [("metadata", .obj [("_principalId", .str "eth:0x1"), ("topic", .str "news"),
      ("callerContext", .obj [])]),
    ("message", .obj [("messageId", .str "m1"),
      ("metadata", .obj [("_principalId", .str "eth:0x1"), ("caller", .str "eth:0x1"),
        ("note", .obj [("_principalId", .str "eth:0x1")])])])]

/-- The name stands somewhere in the value. -/
inductive HoldsKey (key : String) : Json → Prop
  | here {fields : JsonObject} {value : Json} (h : (key, value) ∈ fields) :
      HoldsKey key (.obj fields)
  | field {fields : JsonObject} {name : String} {value : Json} (h : (name, value) ∈ fields)
      (hvalue : HoldsKey key value) : HoldsKey key (.obj fields)
  | item {items : List Json} {value : Json} (h : value ∈ items) (hvalue : HoldsKey key value) :
      HoldsKey key (.arr items)

/-- The names that the bridge reserves. -/
def Reserved (key : String) : Prop :=
  key.startsWith "_" ∨ key ∈ transportKeys ∨ key ∈ [legacyCarrierKey, vcCarrierKey] ∨
    key = executionMarkerKey

end RequestBoundary

end VicoopBridge

import VicoopBridge.Model.OpenclawSession

/-! # Who shares a gateway session

The parts of a session key are free texts with nothing but colons between them. Two tasks
share a session by mistake only if one of them spells out what is the other's own. -/

namespace VicoopBridge

open Library

section

variable (opts : OpenclawSessionOptions) (sha256 : String → String) (t u : OpenclawTask)

/-- The context id of `t`, who is not attributed, is that of `u` followed by the caller of
`u`. -/
def SpellsCaller : Prop :=
  effectiveAgent opts t = effectiveAgent opts u ∧ callerContextSessionKey t.caller = "" ∧
    callerContextSessionKey u.caller ≠ "" ∧ t.contextId = u.contextId ++ callerScope sha256 u

/-- The agent of `t` has the agent of `u` in front, and the context id of `u` starts with the
rest of its name. -/
def SpellsAgent : Prop :=
  ∃ name, effectiveAgent opts t = effectiveAgent opts u ++ ":" ++ name ∧
    u.contextId ++ callerScope sha256 u = name ++ ":" ++ (t.contextId ++ callerScope sha256 t)

def Spells : Prop := SpellsCaller opts sha256 t u ∨ SpellsAgent opts sha256 t u

structure SameSession : Prop where
  agent : effectiveAgent opts t = effectiveAgent opts u
  contextId : t.contextId = u.contextId
  caller : callerContextSessionKey t.caller = callerContextSessionKey u.caller

variable {opts sha256 t u}

theorem openclawSessionKey_eq_iff :
    openclawSessionKey opts sha256 t = openclawSessionKey opts sha256 u ↔
      effectiveAgent opts t ++ ":" ++ (t.contextId ++ callerScope sha256 t) =
        effectiveAgent opts u ++ ":" ++ (u.contextId ++ callerScope sha256 u) := by
  simp [openclawSessionKey, String.append_assoc]

theorem callerScope_of_unattributed (h : callerContextSessionKey t.caller = "") :
    callerScope sha256 t = "" := by
  simp [callerScope, h]

theorem callerScope_of_attributed (h : callerContextSessionKey t.caller ≠ "") :
    callerScope sha256 t = ":caller-" ++
      String.ofList ((sha256 (callerContextSessionKey t.caller)).toList.take 16) := by
  simp [callerScope, h]

/-! ## Texts that end in the same way -/

theorem append_inj_of_length {a b s s' : String} (hlength : s.toList.length = s'.toList.length)
    (h : a ++ s = b ++ s') : a = b ∧ s = s' := by
  have hlist : a.toList ++ s.toList = b.toList ++ s'.toList := by
    rw [← String.toList_append, h, String.toList_append]
  obtain ⟨hfront, hend⟩ := List.append_inj' hlist hlength
  exact ⟨String.toList_injective hfront, String.toList_injective hend⟩

/-- Two texts before a colon are equal, or one goes on with a colon where the other ends. -/
theorem append_colon_eq {a b x y : String} (h : a ++ ":" ++ x = b ++ ":" ++ y) :
    a = b ∧ x = y ∨ (∃ name, a = b ++ ":" ++ name ∧ y = name ++ ":" ++ x) ∨
      ∃ name, b = a ++ ":" ++ name ∧ x = name ++ ":" ++ y := by
  have hlist : a.toList ++ ':' :: x.toList = b.toList ++ ':' :: y.toList := by
    simpa [String.toList_append] using congrArg String.toList h
  -- What one of the texts has more than the other is empty or starts with the colon.
  have hmore {front front' rest rest' more : List Char} (hfront : front = front' ++ more)
      (hrest : ':' :: rest' = more ++ ':' :: rest) :
      front = front' ∧ rest = rest' ∨
        ∃ name, front = front' ++ ':' :: name ∧ rest' = name ++ ':' :: rest := by
    cases more with
    | nil => exact .inl ⟨by simpa using hfront, by simpa using hrest.symm⟩
    | cons c name =>
        simp only [List.cons_append, List.cons.injEq] at hrest
        obtain ⟨rfl, hrest⟩ := hrest
        exact .inr ⟨name, hfront, hrest⟩
  rcases List.append_eq_append_iff.mp hlist with ⟨more, hb, hx⟩ | ⟨more, ha, hy⟩
  · obtain ⟨heq, hrest⟩ | ⟨name, hname, hrest⟩ := hmore hb hx
    · exact .inl ⟨(String.toList_injective heq).symm, (String.toList_injective hrest).symm⟩
    · refine .inr (.inr ⟨String.ofList name, ?_, ?_⟩)
      · exact String.toList_injective (by simpa [String.toList_append] using hname)
      · exact String.toList_injective (by simpa [String.toList_append] using hrest)
  · obtain ⟨heq, hrest⟩ | ⟨name, hname, hrest⟩ := hmore ha hy
    · exact .inl ⟨String.toList_injective heq, String.toList_injective hrest⟩
    · refine .inr (.inl ⟨String.ofList name, ?_, ?_⟩)
      · exact String.toList_injective (by simpa [String.toList_append] using hname)
      · exact String.toList_injective (by simpa [String.toList_append] using hrest)

/-! ## Sessions -/

theorem SpellsCaller.key_eq (h : SpellsCaller opts sha256 t u) :
    openclawSessionKey opts sha256 t = openclawSessionKey opts sha256 u := by
  obtain ⟨hagent, hunattributed, -, hcontext⟩ := h
  rw [openclawSessionKey_eq_iff, hagent, callerScope_of_unattributed hunattributed, hcontext,
    String.append_empty]

theorem SpellsAgent.key_eq (h : SpellsAgent opts sha256 t u) :
    openclawSessionKey opts sha256 t = openclawSessionKey opts sha256 u := by
  obtain ⟨name, hagent, hcontext⟩ := h
  rw [openclawSessionKey_eq_iff, hagent, hcontext]
  simp [String.append_assoc]

theorem SpellsAgent.agent_ne (h : SpellsAgent opts sha256 t u) :
    effectiveAgent opts t ≠ effectiveAgent opts u := by
  obtain ⟨name, hagent, -⟩ := h
  intro heq
  have hlength := congrArg (List.length ∘ String.toList) (hagent.symm.trans heq)
  simp [String.toList_append] at hlength

theorem not_spells_of_attributed (hagent : effectiveAgent opts t = effectiveAgent opts u)
    (ht : callerContextSessionKey t.caller ≠ "") : ¬ Spells opts sha256 t u := by
  rintro (⟨-, hunattributed, -⟩ | hspells)
  · exact ht hunattributed
  · exact hspells.agent_ne hagent

theorem Spells.not_sameSession (h : Spells opts sha256 t u) :
    openclawSessionKey opts sha256 t = openclawSessionKey opts sha256 u ∧
      ¬ SameSession opts t u := by
  obtain hcaller | hagent := h
  · refine ⟨hcaller.key_eq, fun hsame => ?_⟩
    obtain ⟨-, hunattributed, hattributed, -⟩ := hcaller
    exact hattributed (hsame.caller.symm.trans hunattributed)
  · exact ⟨hagent.key_eq, fun hsame => hagent.agent_ne hsame.agent⟩

/-- With the same agent only the absence of a caller can be made up for. -/
theorem sameSession_of_agent_eq (hlength : ∀ text, (sha256 text).toList.length = 64)
    (hcollision : (sha256 (callerContextSessionKey t.caller)).toList.take 16 =
      (sha256 (callerContextSessionKey u.caller)).toList.take 16 →
        callerContextSessionKey t.caller = callerContextSessionKey u.caller)
    (hagent : effectiveAgent opts t = effectiveAgent opts u)
    (hkey : t.contextId ++ callerScope sha256 t = u.contextId ++ callerScope sha256 u)
    (ht : ¬ SpellsCaller opts sha256 t u) (hu : ¬ SpellsCaller opts sha256 u t) :
    SameSession opts t u := by
  by_cases htc : callerContextSessionKey t.caller = "" <;>
    by_cases huc : callerContextSessionKey u.caller = ""
  · refine ⟨hagent, ?_, htc.trans huc.symm⟩
    simpa [callerScope_of_unattributed htc, callerScope_of_unattributed huc] using hkey
  · refine absurd ⟨hagent, htc, huc, ?_⟩ ht
    simpa [callerScope_of_unattributed htc] using hkey
  · refine absurd ⟨hagent.symm, huc, htc, ?_⟩ hu
    simpa [callerScope_of_unattributed huc] using hkey.symm
  · obtain ⟨hcontext, hscope⟩ := append_inj_of_length (by
      simp [callerScope_of_attributed htc, callerScope_of_attributed huc, hlength]) hkey
    refine ⟨hagent, hcontext, hcollision ?_⟩
    rw [callerScope_of_attributed htc, callerScope_of_attributed huc] at hscope
    have hdigest := congrArg String.toList hscope
    simpa [String.toList_append] using hdigest

/-- A session is shared by one agent, context and caller, unless a context id is chosen that
spells the rest of another key. -/
theorem openclawSessionKey_isolates_iff (hlength : ∀ text, (sha256 text).toList.length = 64)
    (hcollision : (sha256 (callerContextSessionKey t.caller)).toList.take 16 =
      (sha256 (callerContextSessionKey u.caller)).toList.take 16 →
        callerContextSessionKey t.caller = callerContextSessionKey u.caller) :
    (openclawSessionKey opts sha256 t = openclawSessionKey opts sha256 u →
        SameSession opts t u) ↔
      ¬ Spells opts sha256 t u ∧ ¬ Spells opts sha256 u t := by
  constructor
  · intro hsame
    refine ⟨fun h => ?_, fun h => ?_⟩
    · obtain ⟨hkey, hnot⟩ := h.not_sameSession
      exact hnot (hsame hkey)
    · obtain ⟨hkey, hnot⟩ := h.not_sameSession
      obtain ⟨hagent, hcontext, hcaller⟩ := hsame hkey.symm
      exact hnot ⟨hagent.symm, hcontext.symm, hcaller.symm⟩
  · rintro ⟨ht, hu⟩ hkey
    rw [openclawSessionKey_eq_iff] at hkey
    obtain ⟨hagent, hrest⟩ | ⟨name, hagent, hrest⟩ | ⟨name, hagent, hrest⟩ :=
      append_colon_eq hkey
    · exact sameSession_of_agent_eq hlength hcollision hagent hrest (fun h => ht (.inl h))
        (fun h => hu (.inl h))
    · exact absurd (.inr ⟨name, hagent, hrest⟩) ht
    · exact absurd (.inr ⟨name, hagent, hrest⟩) hu

section Witness

private def attributed : OpenclawTask where
  contextId := "ctx"
  caller := some (.v2 { principal := some "siwe:0xabc" })

private def elsewhere : OpenclawTask := { attributed with contextId := "elsewhere" }

/-- The hash of the caller's key. -/
private def exampleHash (text : String) : String :=
  if text = callerContextSessionKey attributed.caller then
    "da8a4bc3d9fc40e1ef2401e631861436478b73160321475b0845ff3bc94683ee"
  else String.ofList (List.replicate 64 '0')

private theorem length_exampleHash (text : String) : (exampleHash text).toList.length = 64 := by
  unfold exampleHash
  split
  · decide +kernel
  · simp

theorem openclawSessionKey_isolates_iff_attributed :
    openclawSessionKey {} exampleHash attributed ≠ openclawSessionKey {} exampleHash elsewhere ∧
      (openclawSessionKey {} exampleHash attributed = openclawSessionKey {} exampleHash elsewhere →
        SameSession {} attributed elsewhere) :=
  ⟨by decide +kernel,
    (openclawSessionKey_isolates_iff length_exampleHash (fun _ => by decide +kernel)).mpr
      ⟨not_spells_of_attributed (by decide +kernel) (by decide +kernel),
        not_spells_of_attributed (by decide +kernel) (by decide +kernel)⟩⟩

/-- A caller without attribution writes the other's caller into the context id. -/
theorem openclawSessionKey_shared :
    openclawSessionKey {} exampleHash { contextId := "ctx:caller-da8a4bc3d9fc40e1" } =
        openclawSessionKey {} exampleHash attributed ∧
      ¬ SameSession {} { contextId := "ctx:caller-da8a4bc3d9fc40e1" } attributed := by
  refine ⟨by decide +kernel, fun hsame => ?_⟩
  have hcontext := hsame.contextId
  simp [attributed] at hcontext

end Witness

end

end VicoopBridge

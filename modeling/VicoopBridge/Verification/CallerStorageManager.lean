import VicoopBridge.Model.CallerStorageManager

/-! # What the pool holds after crashes

Every call of a request is made where it can do no harm: it is charged before it is allocated, formatted
before it is ready, unlinked before it is forgotten. So whatever has been killed, the catalog covers the
files, and the budget covers the catalog. -/

namespace VicoopBridge

open Library StorageProgram

/-! ## The invariant -/

/-- The catalog is within its budget and knows every image file. -/
structure Accounted (s : Pool) : Prop where
  budgeted : ∀ policy, s.policy = some policy → s.sizes ≤ policy.budget
  unused : s.policy = none → s.rows.values = []
  catalogued : ∀ key, s.images.has key = true → s.rows.has key = true

def ImageFile.Populated (image : ImageFile) : Prop := ∀ d ∈ storageDirectories, d ∈ image.owned

/-- When a request may make a call. -/
def Permitted (request : StorageRequest) (before : Pool) : PoolOp → Pool → Prop
  | .insertRow key row, s => key = request.key ∧ row.state = .allocating ∧
      ∃ policy, s.policy = some policy ∧ s.sizes + row.size ≤ policy.budget
  | .setReady key, s => key = request.key ∧ ∃ row image, s.rows.get? key = some row ∧
      s.images.get? key = some image ∧ image.filesystem = some row.uuid ∧ image.Populated
  | .deleteRow key, s =>
      key = request.key ∧ request.action = .delete ∧ s.images.has key = false
  | .createImage key, s => key = request.key ∧ s.rows.has key = true
  | .fallocate key _, _ | .mkfs key _, _ => key = request.key ∧ before.images.get? key = none
  | .unlinkImage key, _ => key = request.key ∧ request.action = .delete
  | _, _ => True

/-! ### What a call leaves -/

section Effects

variable {s : Pool}

theorem modifyImage_rows (key : String) (f : ImageFile → ImageFile) :
    (s.modifyImage key f).rows = s.rows ∧ (s.modifyImage key f).policy = s.policy := by
  unfold Pool.modifyImage
  split <;> exact ⟨rfl, rfl⟩

theorem modifyImage_images (key : String) (f : ImageFile → ImageFile) (key' : String) :
    (s.modifyImage key f).images.get? key' =
      if key = key' then (s.images.get? key').map f else s.images.get? key' := by
  unfold Pool.modifyImage
  split
  · rename_i image himage
    rw [InsertionMap.get?_set]
    split
    · rename_i heq
      rw [← heq, himage]
      rfl
    · rfl
  · rename_i hnone
    split
    · rename_i heq
      rw [← heq, hnone]
      rfl
    · rfl

theorem modifyImage_has (key : String) (f : ImageFile → ImageFile) (key' : String) :
    (s.modifyImage key f).images.has key' = s.images.has key' := by
  unfold InsertionMap.has
  rw [modifyImage_images]
  split
  · exact Option.isSome_map
  · rfl

theorem modifyMounted_frame (f : ImageFile → ImageFile) :
    (s.modifyMounted f).rows = s.rows ∧ (s.modifyMounted f).policy = s.policy ∧
      ∀ key, (s.modifyMounted f).images.has key = s.images.has key := by
  unfold Pool.modifyMounted
  split
  · rename_i key _ _
    exact ⟨(modifyImage_rows key f).1, (modifyImage_rows key f).2, modifyImage_has key f⟩
  · exact ⟨rfl, rfl, fun _ => rfl⟩

theorem Accounted.frame (h : Accounted s) {s' : Pool} (hpolicy : s'.policy = s.policy)
    (hrows : s'.rows = s.rows) (himages : ∀ key, s'.images.has key = true → s.images.has key = true) :
    Accounted s' where
  budgeted policy hp := by
    unfold Pool.sizes
    rw [hrows]
    exact h.budgeted policy (hpolicy ▸ hp)
  unused hp := by
    rw [hrows]
    exact h.unused (hpolicy ▸ hp)
  catalogued key hkey := by
    rw [hrows]
    exact h.catalogued key (himages key hkey)

theorem has_set {ν : Type} (m : InsertionMap String ν) (key key' : String) (v : ν) :
    (m.set key v).has key' = (decide (key = key') || m.has key') := by
  unfold InsertionMap.has
  rw [InsertionMap.get?_set]
  by_cases heq : key = key' <;> simp [heq]

theorem has_erase {ν : Type} (m : InsertionMap String ν) (key key' : String) :
    (m.erase key).has key' = (!decide (key = key') && m.has key') := by
  unfold InsertionMap.has
  rw [InsertionMap.get?_erase]
  by_cases heq : key = key' <;> simp [heq]

/-- A new row is charged before it is written. -/
theorem Accounted.insertRow (h : Accounted s) {key : String} {row : ImageRow}
    (hnone : s.rows.get? key = none)
    (hbudget : ∃ policy, s.policy = some policy ∧ s.sizes + row.size ≤ policy.budget) :
    Accounted { s with rows := s.rows.set key row } where
  budgeted policy hp := by
    obtain ⟨policy', hpolicy, hle⟩ := hbudget
    obtain rfl := Option.some.inj (hpolicy.symm.trans hp)
    have hsum := InsertionMap.sum_values_set ImageRow.size s.rows key row
    rw [hnone] at hsum
    exact (hsum.symm ▸ hle : ((s.rows.set key row).values.map ImageRow.size).sum + 0 ≤ _)
  unused hp := by
    obtain ⟨policy', hpolicy, -⟩ := hbudget
    exact absurd (hpolicy.symm.trans hp) (Option.some_ne_none policy')
  catalogued key' hkey' := by
    show (s.rows.set key row).has key' = true
    rw [has_set, h.catalogued key' hkey', Bool.or_true]

/-- A row that changes its state keeps its size. -/
theorem Accounted.setReady (h : Accounted s) {key : String} {row : ImageRow}
    (hrow : s.rows.get? key = some row) :
    Accounted { s with rows := s.rows.set key { row with state := .ready } } where
  budgeted policy hp := by
    have hsum := InsertionMap.sum_values_set ImageRow.size s.rows key { row with state := .ready }
    rw [hrow, Option.map_some, Option.getD_some] at hsum
    have hle := h.budgeted policy hp
    unfold Pool.sizes at hle ⊢
    exact Nat.le_trans (Nat.le_of_eq (Nat.add_right_cancel hsum)) hle
  unused hp := by
    have hmem := (InsertionMap.mem_values_iff s.rows row).mpr ⟨key, hrow⟩
    rw [h.unused hp] at hmem
    cases hmem
  catalogued key' hkey' := by
    show (s.rows.set key _).has key' = true
    rw [has_set, h.catalogued key' hkey', Bool.or_true]

theorem Accounted.deleteRow (h : Accounted s) {key : String} (hgone : s.images.has key = false) :
    Accounted { s with rows := s.rows.erase key } where
  budgeted policy hp := by
    have hsum := InsertionMap.sum_values_erase ImageRow.size s.rows key
    exact Nat.le_trans (Nat.le_add_right _ _)
      (Nat.le_trans (Nat.le_of_eq hsum) (h.budgeted policy hp))
  unused hp := by
    have hempty : s.rows.entries = [] := List.map_eq_nil_iff.mp (h.unused hp)
    show ((s.rows.entries.filter fun e => decide (e.1 ≠ key)).map Prod.snd) = []
    rw [hempty]
    rfl
  catalogued key' hkey' := by
    have hne : key ≠ key' := by
      rintro rfl
      rw [hgone] at hkey'
      cases hkey'
    show (s.rows.erase key).has key' = true
    rw [has_erase, h.catalogued key' hkey', decide_eq_false hne]
    rfl

/-- A permitted call keeps the accounts. -/
theorem Accounted.effect (h : Accounted s) {request : StorageRequest} {before : Pool} {op : PoolOp}
    (hpermitted : Permitted request before op s) {value : op.Value} (hsucceeds : s.Succeeds op value) :
    Accounted (s.effect op value) := by
  cases op with
  | insertPolicy policy =>
      refine ⟨fun policy' hp => ?_, fun hp => ?_, h.catalogued⟩
      · cases hold : s.policy with
        | some old =>
            refine h.budgeted policy' ?_
            have hp : s.policy.or (some policy) = some policy' := hp
            rwa [hold, Option.some_or, ← hold] at hp
        | none =>
            show (s.rows.values.map _).sum ≤ _
            rw [h.unused hold]
            exact Nat.zero_le _
      · have hp : s.policy.or (some policy) = none := hp
        cases hold : s.policy <;> simp [hold] at hp
  | insertRow key row => exact h.insertRow hsucceeds.1 hpermitted.2.2
  | setReady key =>
      obtain ⟨-, row, -, hrow, -⟩ := hpermitted
      simp only [Pool.effect, hrow]
      exact h.setReady hrow
  | deleteRow key => exact h.deleteRow hpermitted.2.2
  | createImage key =>
      refine ⟨h.budgeted, h.unused, fun key' hkey' => ?_⟩
      have hkey' : (s.images.set key {}).has key' = true := hkey'
      rw [has_set, Bool.or_eq_true, decide_eq_true_iff] at hkey'
      rcases hkey' with rfl | hold
      · exact hpermitted.2
      · exact h.catalogued key' hold
  | unlinkImage key =>
      refine h.frame rfl rfl fun key' hkey' => ?_
      have hkey' : (s.images.erase key).has key' = true := hkey'
      rw [has_erase, Bool.and_eq_true] at hkey'
      exact hkey'.2
  | fallocate key size =>
      exact h.frame (modifyImage_rows key _).2 (modifyImage_rows key _).1
        fun key' hkey' => modifyImage_has key _ key' ▸ hkey'
  | mkfs key uuid =>
      exact h.frame (modifyImage_rows key _).2 (modifyImage_rows key _).1
        fun key' hkey' => modifyImage_has key _ key' ▸ hkey'
  | mkdir directory =>
      obtain ⟨hrows, hpolicy, himages⟩ := modifyMounted_frame (s := s)
        fun image => { image with made := image.made ++ [directory] }
      exact h.frame hpolicy hrows fun key hkey => himages key ▸ hkey
  | chown directory =>
      obtain ⟨hrows, hpolicy, himages⟩ := modifyMounted_frame (s := s)
        fun image => { image with owned := image.owned ++ [directory] }
      exact h.frame hpolicy hrows fun key hkey => himages key ▸ hkey
  | mountLoop loop =>
      simp only [Pool.effect]
      split
      · exact h.frame rfl rfl fun _ hkey => hkey
      · exact h
  | losetup _ | umount | detachLoop _ | symlinkAlias _ _ | unlinkAlias _ =>
      exact h.frame rfl rfl fun _ hkey => hkey
  | _ => exact h

theorem Accounted.calls (h : Accounted s) {request : StorageRequest} {before : Pool} {op : PoolOp}
    (hpermitted : Permitted request before op s) {answer : op.Answer} {s' : Pool}
    (hcalls : Pool.Calls op s answer s') : Accounted s' := by
  cases answer with
  | ok value =>
      obtain ⟨hsucceeds, rfl⟩ := hcalls
      exact h.effect hpermitted hsucceeds
  | error e =>
      rcases hcalls with rfl | ⟨value, hsucceeds, rfl⟩
      · exact h
      · exact h.effect hpermitted hsucceeds

end Effects

/-! ## Programs -/

section Programs

variable {request : StorageRequest} {before s : Pool} {α β : Type}

/-- Every call of the program is permitted, and what it returns is as `post` says. -/
abbrev SafeFor (request : StorageRequest) (before : Pool) (post : α → Pool → Prop)
    (p : StorageProgram α) (s : Pool) : Prop :=
  Program.Safe Pool.Calls (Permitted request before) (Program.Returns post) p s

theorem safe_call {op : PoolOp} {Q : op.Value → Pool → Prop} (hop : Permitted request before op s)
    (h : ∀ value, s.Succeeds op value → Q value (s.effect op value)) :
    SafeFor request before Q (call op) s := by
  refine ⟨hop, fun answer s' hcalls => ?_⟩
  cases answer with
  | ok value =>
      obtain ⟨hsucceeds, rfl⟩ := hcalls
      exact h value hsucceeds
  | error e => trivial

theorem safe_call_bind {op : PoolOp} {f : op.Value → StorageProgram β} {post : β → Pool → Prop}
    (hop : Permitted request before op s)
    (h : ∀ value, s.Succeeds op value → SafeFor request before post (f value) (s.effect op value)) :
    SafeFor request before post (call op >>= f) s :=
  Program.Safe.bind (safe_call (Q := fun value s' => s' = s.effect op value ∧ s.Succeeds op value)
    hop fun _ hsucceeds => ⟨rfl, hsucceeds⟩) fun value _ ⟨hs', hsucceeds⟩ => hs' ▸ h value hsucceeds

/-- A call that only reads. -/
theorem safe_read_bind {op : PoolOp} {f : op.Value → StorageProgram β} {post : β → Pool → Prop}
    (hread : ∀ value, s.effect op value = s) (hop : Permitted request before op s)
    (h : ∀ value, s.Succeeds op value → SafeFor request before post (f value) s) :
    SafeFor request before post (call op >>= f) s :=
  safe_call_bind hop fun value hsucceeds => by
    rw [hread value]
    exact h value hsucceeds

theorem safe_require_bind {condition : Bool} {message : String} {f : Unit → StorageProgram β}
    {post : β → Pool → Prop} (h : condition = true → SafeFor request before post (f ()) s) :
    SafeFor request before post (requireState condition message >>= f) s := by
  unfold requireState
  split
  · rename_i hcondition
    exact h hcondition
  · trivial

theorem safe_require {condition : Bool} {message : String} {post : Unit → Pool → Prop}
    (h : condition = true → post () s) :
    SafeFor request before post (requireState condition message) s := by
  unfold requireState
  split
  · rename_i hcondition
    exact h hcondition
  · trivial

/-- The catalog and the files. -/
def Pool.core (s : Pool) : Option PoolPolicy × InsertionMap String ImageRow ×
    InsertionMap String ImageFile := (s.policy, s.rows, s.images)

/-- A call that may fail and that leaves the catalog and the files alone. -/
theorem safe_attempt_bind {op : PoolOp} {f : op.Answer → StorageProgram β} {post : β → Pool → Prop}
    (hcore : ∀ value, (s.effect op value).core = s.core) (hop : Permitted request before op s)
    (h : ∀ answer s', s'.core = s.core → SafeFor request before post (f answer) s') :
    SafeFor request before post (attempt op >>= f) s := by
  refine ⟨hop, fun answer s' hcalls => h answer s' ?_⟩
  cases answer with
  | ok value => exact hcalls.2 ▸ hcore value
  | error e =>
      rcases hcalls with rfl | ⟨value, -, rfl⟩
      · rfl
      · exact hcore value

/-- The program leaves the catalog and the files alone. -/
def Still (request : StorageRequest) (before : Pool) (p : StorageProgram α) : Prop :=
  ∀ s, SafeFor request before (fun _ s' => s'.core = s.core) p s

theorem Still.bind {p : StorageProgram α} {f : α → StorageProgram β} (h : Still request before p)
    (hf : ∀ a, Still request before (f a)) : Still request before (p >>= f) := fun s =>
  (h s).bind fun a s' hcore => (hf a s').mono fun _ _ hcore' => hcore'.trans hcore

theorem still_pure (a : α) : Still request before (pure a : StorageProgram α) := fun _ => rfl

theorem still_throw (e : StorageError) : Still request before (Program.throw e : StorageProgram α) :=
  fun _ => trivial

theorem still_require (condition : Bool) (message : String) :
    Still request before (requireState condition message) := fun _ => safe_require fun _ => rfl

theorem still_call {op : PoolOp} (hop : ∀ s, Permitted request before op s)
    (hcore : ∀ s value, (Pool.effect s op value).core = s.core) : Still request before (call op) :=
  fun s => safe_call (hop s) fun value _ => hcore s value

theorem still_call_bind {op : PoolOp} {f : op.Value → StorageProgram β}
    (hop : ∀ s, Permitted request before op s)
    (hcore : ∀ s value, (Pool.effect s op value).core = s.core)
    (hf : ∀ value, Still request before (f value)) : Still request before (call op >>= f) :=
  (still_call hop hcore).bind hf

theorem still_attempt {op : PoolOp} {f : op.Answer → StorageProgram β}
    (hop : ∀ s, Permitted request before op s)
    (hcore : ∀ s value, (Pool.effect s op value).core = s.core)
    (hf : ∀ answer, Still request before (f answer)) : Still request before (attempt op >>= f) :=
  fun s => safe_attempt_bind (hcore s) (hop s) fun answer s' hs' =>
    (hf answer s').mono fun _ _ hcore' => hcore'.trans hs'

/-- What follows a program that leaves the catalog and the files alone. -/
theorem Still.then {p : StorageProgram α} {f : α → StorageProgram β} {post : β → Pool → Prop}
    (h : Still request before p)
    (hf : ∀ a s', s'.core = s.core → SafeFor request before post (f a) s') :
    SafeFor request before post (p >>= f) s := (h s).bind hf

/-! ### The small programs -/

theorem still_ensureStorageAlias (uuid loop : String) (attempts : ℕ) :
    Still request before (ensureStorageAlias uuid loop attempts) := by
  have hcall : Still request before (call .sleep) := still_call (fun _ => trivial) fun _ _ => rfl
  induction attempts with
  | zero => exact still_throw _
  | succ attempts ih =>
      unfold ensureStorageAlias
      refine still_attempt (fun _ => trivial) (fun _ _ => rfl) fun linked => ?_
      split
      · exact still_pure ()
      · refine still_attempt (fun _ => trivial) (fun _ _ => rfl) fun read => ?_
        split
        · refine (still_require _ _).bind fun _ => ?_
          split
          · exact still_pure ()
          · refine still_attempt (fun _ => trivial) (fun _ _ => rfl) fun removed => ?_
            split
            · exact hcall.bind fun _ => ih
            · exact hcall.bind fun _ => ih
            · exact still_throw _
        · exact hcall.bind fun _ => ih
        · exact still_throw _
      · exact still_throw _

theorem still_awaitDetached (key : String) (attempts : ℕ) :
    Still request before (awaitDetached key attempts) := by
  induction attempts with
  | zero => exact still_pure ()
  | succ attempts ih =>
      unfold awaitDetached
      refine still_call_bind (fun _ => trivial) (fun _ _ => rfl) fun lines => ?_
      split
      · exact still_pure ()
      · exact still_call_bind (fun _ => trivial) (fun _ _ => rfl) fun _ => ih

theorem still_detachLoops (key : String) (lines : List String) :
    Still request before (detachLoops key lines) := by
  induction lines with
  | nil => exact still_pure ()
  | cons line rest ih =>
      unfold detachLoops
      refine still_call_bind (fun _ => trivial) (fun _ _ => rfl) fun _ => ?_
      refine (still_awaitDetached key 50).bind fun _ => ?_
      refine still_call_bind (fun _ => trivial) (fun _ _ => rfl) fun lines => ?_
      exact (still_require _ _).bind fun _ => ih

theorem still_checkAlias (uuid : String) : Still request before (checkAlias uuid) := by
  unfold checkAlias
  refine still_attempt (fun _ => trivial) (fun _ _ => rfl) fun read => ?_
  split
  · exact still_require _ _
  · exact still_pure ()
  · exact still_throw _

theorem still_removeAlias (uuid : String) : Still request before (removeAlias uuid) := by
  unfold removeAlias
  refine still_attempt (fun _ => trivial) (fun _ _ => rfl) fun removed => ?_
  split
  · exact still_pure ()
  · exact still_pure ()
  · exact still_throw _

theorem still_probeMount : Still request before probeMount := by
  unfold probeMount
  refine still_call_bind (fun _ => trivial) (fun _ _ => rfl) fun _ => ?_
  refine still_call_bind (fun _ => trivial) (fun _ _ => rfl) fun _ => ?_
  refine still_call_bind (fun _ => trivial) (fun _ _ => rfl) fun text => ?_
  refine (still_require _ _).bind fun _ => ?_
  exact still_call (fun _ => trivial) fun _ _ => rfl

theorem still_prepareStoragePool : Still request before prepareStoragePool := by
  unfold prepareStoragePool
  refine still_call_bind (fun _ => trivial) (fun _ _ => rfl) fun _ => ?_
  exact still_call_bind (fun _ => trivial) (fun _ _ => rfl) fun symlink => still_require _ _

/-! ### Allocation -/

/-- The row of a request that is being allocated, or is ready. -/
def StorageRequest.row (request : StorageRequest) (state : RowState) : ImageRow :=
  { uuid := request.uuid, size := request.size, state := state }

/-- The request has charged its row and formatted its image; these directories are handed over. -/
structure Made (request : StorageRequest) (owned : List String) (s : Pool) : Prop where
  row : s.rows.get? request.key = some (request.row .allocating)
  image : ∃ image, s.images.get? request.key = some image ∧
    image.filesystem = some request.uuid ∧ ∀ d ∈ owned, d ∈ image.owned

theorem Made.core {owned : List String} (h : Made request owned s) {s' : Pool}
    (hcore : s'.core = s.core) : Made request owned s' := by
  obtain ⟨-, hrows, himages⟩ : s'.policy = s.policy ∧ s'.rows = s.rows ∧ s'.images = s.images := by
    simpa only [Pool.core, Prod.mk.injEq] using hcore
  exact ⟨hrows ▸ h.row, himages ▸ h.image⟩

theorem modifyMounted_of_head {key : String} (h : s.mounts.head? = some key)
    (f : ImageFile → ImageFile) : s.modifyMounted f = s.modifyImage key f := by
  unfold Pool.modifyMounted
  cases hmounts : s.mounts with
  | nil =>
      rw [hmounts] at h
      cases h
  | cons top rest =>
      rw [hmounts] at h
      rw [Option.some.inj h]

theorem modifyImage_mounts (key : String) (f : ImageFile → ImageFile) :
    (s.modifyImage key f).mounts = s.mounts := by
  unfold Pool.modifyImage
  split <;> rfl

/-- What is written under the mount of the image. -/
theorem Made.modifyMounted {owned l : List String} (h : Made request owned s)
    (hmount : s.mounts.head? = some request.key) {f : ImageFile → ImageFile}
    (hf : ∀ image, (f image).filesystem = image.filesystem)
    (howned : ∀ image : ImageFile, (∀ d ∈ owned, d ∈ image.owned) → ∀ d ∈ l, d ∈ (f image).owned) :
    Made request l (s.modifyMounted f) ∧ (s.modifyMounted f).mounts.head? = some request.key := by
  rw [modifyMounted_of_head hmount]
  refine ⟨⟨?_, ?_⟩, by rw [modifyImage_mounts]; exact hmount⟩
  · rw [(modifyImage_rows _ _).1]
    exact h.row
  · obtain ⟨image, himage, hformat, hdone⟩ := h.image
    refine ⟨f image, ?_, (hf image).trans hformat, howned image hdone⟩
    rw [modifyImage_images, if_pos rfl, himage]
    rfl

theorem safe_makeDirectories (directories : List String) {owned : List String}
    (h : Made request owned s) (hmount : s.mounts.head? = some request.key) :
    SafeFor request before (fun _ s' => Made request (owned ++ directories) s')
      (makeDirectories directories) s := by
  induction directories generalizing s owned with
  | nil =>
      rw [List.append_nil]
      exact Program.Safe.pure h
  | cons directory rest ih =>
      unfold makeDirectories
      refine safe_call_bind trivial fun _ _ => safe_call_bind trivial fun _ _ => ?_
      obtain ⟨hmade, hmount⟩ := h.modifyMounted hmount
        (f := fun image => { image with made := image.made ++ [directory] }) (fun _ => rfl)
        fun _ hdone => hdone
      obtain ⟨howned, hmount⟩ := hmade.modifyMounted hmount (l := owned ++ [directory])
        (f := fun image => { image with owned := image.owned ++ [directory] }) (fun _ => rfl)
        fun image hdone d hd => by
          rcases List.mem_append.mp hd with hold | hnew
          · exact List.mem_append_left _ (hdone d hold)
          · exact List.mem_append_right _ hnew
      have hrest := ih howned hmount
      rw [List.append_assoc, List.singleton_append] at hrest
      exact hrest

theorem safe_populate (h : Made request [] s) (hmount : s.mounts.head? = some request.key) :
    SafeFor request before (fun _ s' => Made request storageDirectories s') (populate request) s := by
  unfold populate
  refine (safe_makeDirectories storageDirectories h hmount).bind fun _ s hmade => ?_
  have hsync : ∀ s', s'.core = s.core →
      SafeFor request before (fun _ s' => Made request storageDirectories s') (call .syncMount) s' :=
    fun s' hcore => safe_call trivial fun _ _ => (hmade.core hcore).core rfl
  dsimp only
  split
  · exact still_probeMount.then fun _ s' hcore => hsync s' hcore
  · exact hsync s rfl

/-- The image is formatted and populated while its catalog row says that it is being allocated. -/
theorem safe_format (hfresh : before.images.get? request.key = none)
    (hrow : s.rows.get? request.key = some (request.row .allocating))
    (himage : s.images.has request.key = true) {f : Unit → StorageProgram β} {post : β → Pool → Prop}
    (hf : ∀ s', Made request storageDirectories s' → SafeFor request before post (f ()) s') :
    SafeFor request before post (do
      call (.mkfs request.key request.uuid)
      call .makeMount
      let loop ← call (.losetup request.key)
      Program.tryFinally
        (do
          call (.mountLoop loop)
          Program.tryFinally (populate request) (call .umount))
        (call (.detachLoop loop))
      f ()) s := by
  refine safe_call_bind ⟨rfl, hfresh⟩ fun _ _ => ?_
  refine safe_call_bind trivial fun _ _ => safe_call_bind trivial fun loop hloop => ?_
  have hformatted : Made request [] (s.modifyImage request.key fun image =>
      { size := image.size, filesystem := some request.uuid }) := by
    refine ⟨?_, ?_⟩
    · rw [(modifyImage_rows _ _).1]
      exact hrow
    · obtain ⟨image, hget⟩ := Option.isSome_iff_exists.mp himage
      refine ⟨{ size := image.size, filesystem := some request.uuid }, ?_, rfl, nofun⟩
      rw [modifyImage_images, if_pos rfl, hget]
      rfl
  refine Program.Safe.bind (R := fun _ s' => Made request storageDirectories s') ?_
    fun _ s' hmade => hf s' hmade
  refine Program.Safe.tryFinally (R := fun _ s' => Made request storageDirectories s') ?_
    (fun _ s' hmade => safe_call trivial fun _ _ => hmade.core rfl)
    fun s' => safe_call trivial fun _ _ => trivial
  refine safe_call_bind trivial fun _ _ => ?_
  refine Program.Safe.tryFinally (R := fun _ s' => Made request storageDirectories s') ?_
    (fun _ s' hmade => safe_call trivial fun _ _ => hmade.core rfl)
    fun s' => safe_call trivial fun _ _ => trivial
  set attached := (s.modifyImage request.key fun image =>
    { size := image.size, filesystem := some request.uuid } : Pool).effect (.losetup request.key) loop
  have hloop : attached.loops.get? loop = some request.key := InsertionMap.get?_set_self _ _ _
  have hmounted : attached.effect (.mountLoop loop) () =
      { attached with mounts := request.key :: attached.mounts } := by
    simp only [Pool.effect, hloop]
  have hpopulate : SafeFor request before (fun _ s' => Made request storageDirectories s')
      (populate request) { attached with mounts := request.key :: attached.mounts } :=
    safe_populate (hformatted.core rfl) rfl
  rw [← hmounted] at hpopulate
  exact hpopulate

theorem safe_allocate (hsame : s.images = before.images) {policy : PoolPolicy}
    (hpolicy : s.policy = some policy) (hbudget : policy.budget = request.budget) :
    SafeFor request before (fun _ s' => s'.rows.get? request.key = some (request.row .ready))
      (allocate request) s := by
  unfold allocate
  refine safe_read_bind (fun _ => rfl) trivial fun found hfound => safe_require_bind fun habsent => ?_
  have hfresh : before.images.get? request.key = none := by
    have hhas : s.images.has request.key = false := by
      rw [← show found = s.images.has request.key from hfound]
      simpa using habsent
    rw [← hsame]
    exact Option.isSome_eq_false_iff.mp hhas |> Option.isNone_iff_eq_none.mp
  refine safe_read_bind (fun _ => rfl) trivial fun used hused => ?_
  refine safe_read_bind (fun _ => rfl) trivial fun space _ => ?_
  refine safe_require_bind fun hfits => safe_require_bind fun _ => ?_
  have hcharged : s.sizes + request.size ≤ policy.budget := by
    rw [hbudget, ← show used = s.sizes from hused]
    exact of_decide_eq_true hfits
  refine safe_call_bind ⟨rfl, rfl, policy, hpolicy, hcharged⟩ fun _ _ => ?_
  set charged := s.effect (.insertRow request.key (request.row .allocating)) ()
  have hrow : charged.rows.get? request.key = some (request.row .allocating) :=
    InsertionMap.get?_set_self _ _ _
  refine safe_call_bind ⟨rfl, ?_⟩ fun _ _ => ?_
  · exact Option.isSome_iff_exists.mpr ⟨_, hrow⟩
  have himage : (charged.effect (.createImage request.key) ()).images.has request.key = true := by
    show (charged.images.set request.key {}).has request.key = true
    rw [has_set, decide_eq_true rfl, Bool.true_or]
  refine Program.Safe.bind (R := fun _ s' =>
    s'.rows.get? request.key = some (request.row .allocating) ∧
      s'.images.has request.key = true) ?_ fun _ s' ⟨hrow, himage⟩ => ?_
  · refine Program.Safe.tryFinally (R := fun _ s' =>
      s'.rows.get? request.key = some (request.row .allocating) ∧
        s'.images.has request.key = true) ?_
      (fun _ s' hkept => safe_call trivial fun _ _ => hkept)
      fun s' => safe_call trivial fun _ _ => trivial
    refine safe_call_bind ⟨rfl, hfresh⟩ fun _ _ => safe_call trivial fun _ _ => ⟨?_, ?_⟩
    · have hrows := (modifyImage_rows (s := charged.effect (.createImage request.key) ()) request.key
        fun image => { image with size := request.size }).1
      exact (congrArg (·.get? request.key) hrows).trans hrow
    · exact (modifyImage_has request.key _ request.key).trans himage
  refine safe_read_bind (fun _ => rfl) trivial fun _ _ => ?_
  refine safe_format (f := fun _ => do
    call (.syncImage request.key)
    let stat ← call (.statImage request.key)
    requireState (request.size ≤ stat.blocks * 512) "backing filesystem did not retain allocation"
    call (.setReady request.key)) hfresh hrow himage fun s' hmade => ?_
  refine safe_read_bind (fun _ => rfl) trivial fun _ _ => ?_
  refine safe_read_bind (fun _ => rfl) trivial fun stat _ => safe_require_bind fun _ => ?_
  obtain ⟨image, himage, hformat, hpopulated⟩ := hmade.image
  refine safe_call ⟨rfl, request.row .allocating, image, hmade.row, himage, hformat, hpopulated⟩
    fun _ _ => ?_
  simp only [Pool.effect, hmade.row]
  exact InsertionMap.get?_set_self _ _ _

/-! ### The request -/

theorem safe_deleteImage (hdelete : request.action = .delete) :
    SafeFor request before (fun result _ => result = none) (deleteImage request) s := by
  have hrow : ∀ s' : Pool, s'.images.has request.key = false →
      SafeFor request before (fun result _ => result = none) (do
        call (.deleteRow request.key)
        pure (none : Option StorageAttachment)) s' := fun s' hgone =>
    safe_call_bind ⟨rfl, hdelete, hgone⟩ fun _ _ => Program.Safe.pure rfl
  unfold deleteImage
  refine safe_read_bind (fun _ => rfl) trivial fun found hfound => ?_
  dsimp only
  split
  · have hremove : SafeFor request before (fun _ s' => s'.images.has request.key = false)
        (removeImage request) s := by
      unfold removeImage
      refine (still_checkAlias _).then fun _ s₁ _ => ?_
      refine safe_read_bind (fun _ => rfl) trivial fun lines _ => ?_
      refine (still_detachLoops _ _).then fun _ s₂ _ => ?_
      refine (still_removeAlias _).then fun _ s₃ _ => ?_
      refine safe_call_bind ⟨rfl, hdelete⟩ fun _ _ => safe_call trivial fun _ _ => ?_
      show (s₃.images.erase request.key).has request.key = false
      rw [has_erase, decide_eq_true rfl]
      rfl
    exact hremove.bind fun _ s' hgone => hrow s' hgone
  · rename_i hnone
    refine hrow s ?_
    rw [← show found = s.images.has request.key from hfound]
    simpa using hnone

/-- What an attachment is made of. -/
def Attached (request : StorageRequest) (result : Option StorageAttachment) (s : Pool) : Prop :=
  ∀ attachment, result = some attachment → ∃ row, s.rows.get? request.key = some row ∧
    row.state = .ready ∧ row.uuid = request.uuid ∧ row.size = request.size ∧
      attachment = { uuid := row.uuid, bytes := row.size }

theorem safe_attachImage {state : RowState} (hrow : s.rows.get? request.key = some (request.row state)) :
    SafeFor request before (Attached request) (attachImage request state) s := by
  unfold attachImage
  refine safe_require_bind fun hready => ?_
  obtain rfl := of_decide_eq_true hready
  refine safe_read_bind (fun _ => rfl) trivial fun found _ => safe_require_bind fun _ => ?_
  refine safe_read_bind (fun _ => rfl) trivial fun stat _ => safe_require_bind fun _ => ?_
  refine safe_read_bind (fun _ => rfl) trivial fun uuid _ => safe_require_bind fun _ => ?_
  refine safe_read_bind (fun _ => rfl) trivial fun type _ => safe_require_bind fun _ => ?_
  split
  · exact Program.Safe.pure nofun
  · refine safe_call_bind trivial fun loop _ => ?_
    refine safe_read_bind (fun _ => rfl) trivial fun attached _ => safe_require_bind fun _ => ?_
    refine safe_read_bind (fun _ => rfl) trivial fun _ _ => ?_
    refine (still_ensureStorageAlias _ _ _).then fun _ s' hcore => ?_
    refine Program.Safe.pure fun attachment hattachment => ⟨request.row .ready, ?_, rfl, rfl, rfl, ?_⟩
    · have hrows : s'.rows = s.rows := congrArg (·.2.1) hcore
      rw [hrows]
      exact hrow
    · exact (Option.some.inj hattachment).symm

theorem safe_checkPolicy :
    SafeFor request before (fun _ s' => s'.rows = s.rows ∧ s'.images = s.images ∧
      ∃ policy, s'.policy = some policy ∧ policy.budget = request.budget)
      (checkPolicy request s.policy) s := by
  unfold checkPolicy
  split
  · rename_i hnone
    refine safe_call trivial fun _ _ =>
      ⟨rfl, rfl, { budget := request.budget, reserve := request.reserve }, ?_, rfl⟩
    show s.policy.or _ = _
    rw [hnone, Option.none_or]
  · rename_i policy hpolicy
    refine safe_require fun hsame => ⟨rfl, rfl, policy, hpolicy, ?_⟩
    rw [Bool.and_eq_true, decide_eq_true_iff] at hsame
    exact hsame.1

theorem safe_admitRow (hsame : s.images = before.images) {policy : PoolPolicy}
    (hpolicy : s.policy = some policy) (hbudget : policy.budget = request.budget) :
    SafeFor request before
      (fun state s' => s'.rows.get? request.key = some (request.row state))
      (admitRow request (s.rows.get? request.key)) s := by
  unfold admitRow
  split
  · rename_i row hrow
    refine safe_require_bind fun hidentity => Program.Safe.pure ?_
    rw [Bool.and_eq_true, decide_eq_true_iff, decide_eq_true_iff] at hidentity
    rw [hrow, StorageRequest.row, ← hidentity.1, ← hidentity.2]
  · split
    · exact (safe_allocate hsame hpolicy hbudget).bind fun _ s' hready =>
        Program.Safe.pure hready
    · exact Program.Safe.throw

theorem safe_serveRequest (hsame : s.images = before.images) :
    SafeFor request before (Attached request) (serveRequest request) s := by
  unfold serveRequest
  refine safe_read_bind (fun _ => rfl) trivial fun _ _ => ?_
  refine safe_read_bind (fun _ => rfl) trivial fun policy hpolicy => ?_
  refine safe_read_bind (fun _ => rfl) trivial fun row hrow => ?_
  refine safe_read_bind (fun _ => rfl) trivial fun symlink _ => safe_require_bind fun _ => ?_
  obtain rfl : policy = s.policy := hpolicy
  obtain rfl : row = s.rows.get? request.key := hrow
  split
  · refine safe_read_bind (fun _ => rfl) trivial fun found _ => safe_require_bind fun _ => ?_
    exact Program.Safe.pure (by rintro _ ⟨⟩)
  · refine safe_checkPolicy.bind fun _ s₁ hchecked => ?_
    obtain ⟨hrows, himages, policy, hpolicy, hbudget⟩ := hchecked
    refine safe_read_bind (fun _ => rfl) trivial fun _ _ => ?_
    rw [← hrows]
    refine (safe_admitRow (himages.trans hsame) hpolicy hbudget).bind fun state s₂ hrow => ?_
    split
    · rename_i hdelete
      exact (safe_deleteImage hdelete).mono fun result _ hnone attachment hsome =>
        absurd (hnone.symm.trans hsome) (Option.some_ne_none attachment).symm
    · exact safe_attachImage hrow

theorem safe_runStorageManager (request : StorageRequest) (s : Pool) :
    SafeFor request s (Attached request) (runStorageManager request) s := by
  unfold runStorageManager
  refine still_prepareStoragePool.then fun _ s' hcore => ?_
  refine safe_read_bind (fun _ => rfl) trivial fun _ _ => ?_
  have himages : s'.images = s.images := congrArg (·.2.2) hcore
  exact Program.Safe.tryFinally (safe_serveRequest himages)
    (fun result s' hattached => safe_call trivial fun _ _ => hattached)
    fun s' => safe_call trivial fun _ _ => trivial

end Programs

/-! ## Requests, failures and kills -/

/-- A pool from nothing, and its requests one after the other. -/
def storageSystem :
    System (Served StorageRequest Pool (StorageProgram (Option StorageAttachment)))
      (ServedAction StorageRequest PoolOp PoolOp.Answer) :=
  servedSystem (fun s => s.policy = none ∧ s.rows = .empty ∧ s.images = .empty) Pool.Calls
    (fun request => ∃ args, parseStorageRequest args = .ok request) runStorageManager

abbrev StorageServer := Served StorageRequest Pool (StorageProgram (Option StorageAttachment))

/-- The image a call formats or allocates. -/
def PoolOp.formats : PoolOp → Option String
  | .mkfs key _ | .fallocate key _ => some key
  | _ => none

/-- What one step may do to the pool. -/
structure StorageSpec (m : StorageServer) (a : ServedAction StorageRequest PoolOp PoolOp.Answer)
    (m' : StorageServer) : Prop where
  policy : ∀ policy, m.store.policy = some policy → m'.store.policy = some policy
  ready : ∀ key row, m'.store.rows.get? key = some row → row.state = .ready →
    m.store.rows.get? key = some row ∨ ∃ image, m.store.images.get? key = some image ∧
      image.filesystem = some row.uuid ∧ image.Populated
  fresh : ∀ serving ∈ m.serving, ∀ op answer, a = .answer op answer → ∀ key, op.formats = some key →
    serving.before.images.get? key = none
  attached : ∀ serving ∈ m.serving, ∀ attachment,
    serving.program = .done (.ok (some attachment)) →
      ∃ row, m.store.rows.get? serving.request.key = some row ∧ row.state = .ready ∧
        row.uuid = serving.request.uuid ∧ row.size = serving.request.size ∧
          attachment = { uuid := row.uuid, bytes := row.size }
  others : ∀ serving ∈ m.serving, ∀ key, key ≠ serving.request.key →
    m'.store.rows.get? key = m.store.rows.get? key ∧
      (m.store.images.has key = true → m'.store.images.has key = true)
  kept : m.serving = none → m'.store = m.store

/-- What one call may do to the pool, done or not. -/
structure EffectSpec (request : StorageRequest) (s s' : Pool) : Prop where
  policy : ∀ policy, s.policy = some policy → s'.policy = some policy
  ready : ∀ key row, s'.rows.get? key = some row → row.state = .ready →
    s.rows.get? key = some row ∨ ∃ image, s.images.get? key = some image ∧
      image.filesystem = some row.uuid ∧ image.Populated
  others : ∀ key, key ≠ request.key → s'.rows.get? key = s.rows.get? key ∧
    (s.images.has key = true → s'.images.has key = true)

section Steps

variable {request : StorageRequest} {before s : Pool}

theorem EffectSpec.frame {s' : Pool} (hpolicy : s'.policy = s.policy) (hrows : s'.rows = s.rows)
    (himages : ∀ key, key ≠ request.key → s.images.has key = true → s'.images.has key = true) :
    EffectSpec request s s' where
  policy policy hp := hpolicy.trans hp
  ready key row hrow _ := .inl (hrows ▸ hrow)
  others key hkey := ⟨by rw [hrows], himages key hkey⟩

theorem effectSpec {op : PoolOp} (hop : Permitted request before op s) (value : op.Value) :
    EffectSpec request s (s.effect op value) := by
  have hmodify : ∀ key f, EffectSpec request s (s.modifyImage key f) := fun key f =>
    .frame (modifyImage_rows key f).2 (modifyImage_rows key f).1
      fun key' _ himage => (modifyImage_has key f key').trans himage
  have hmounted : ∀ f, EffectSpec request s (s.modifyMounted f) := fun f => by
    obtain ⟨hrows, hpolicy, himages⟩ := modifyMounted_frame (s := s) f
    exact .frame hpolicy hrows fun key _ himage => (himages key).trans himage
  cases op with
  | insertPolicy policy =>
      refine ⟨fun policy' hp => ?_, fun _ _ hrow _ => .inl hrow, fun _ _ => ⟨rfl, id⟩⟩
      show s.policy.or _ = _
      rw [hp, Option.some_or]
  | insertRow key row =>
      obtain ⟨rfl, hstate, -⟩ := hop
      refine ⟨fun _ hp => hp, fun key' row' hrow hready => ?_, fun key' hkey => ⟨?_, id⟩⟩
      · have hrow : (s.rows.set request.key row).get? key' = some row' := hrow
        rw [InsertionMap.get?_set] at hrow
        split at hrow
        · obtain rfl := Option.some.inj hrow
          rw [hstate] at hready
          cases hready
        · exact .inl hrow
      · exact InsertionMap.get?_set_of_ne _ _ (Ne.symm hkey)
  | setReady key =>
      obtain ⟨rfl, row, image, hrow, himage, hformat, hpopulated⟩ := hop
      simp only [Pool.effect, hrow]
      refine ⟨fun _ hp => hp, fun key' row' hrow' hready => ?_, fun key' hkey => ⟨?_, id⟩⟩
      · have hrow' : (s.rows.set request.key { row with state := .ready }).get? key' = some row' :=
          hrow'
        rw [InsertionMap.get?_set] at hrow'
        split at hrow'
        · rename_i heq
          obtain rfl := Option.some.inj hrow'
          exact .inr ⟨image, heq ▸ himage, hformat, hpopulated⟩
        · exact .inl hrow'
      · exact InsertionMap.get?_set_of_ne _ _ (Ne.symm hkey)
  | deleteRow key =>
      obtain ⟨rfl, -⟩ := hop
      refine ⟨fun _ hp => hp, fun key' row' hrow _ => ?_, fun key' hkey => ⟨?_, id⟩⟩
      · have hrow : (s.rows.erase request.key).get? key' = some row' := hrow
        rw [InsertionMap.get?_erase] at hrow
        split at hrow
        · cases hrow
        · exact .inl hrow
      · exact InsertionMap.get?_erase_of_ne _ (Ne.symm hkey)
  | createImage key =>
      refine .frame rfl rfl fun key' _ himage => ?_
      show (s.images.set key {}).has key' = true
      rw [has_set, himage, Bool.or_true]
  | unlinkImage key =>
      obtain ⟨rfl, -⟩ := hop
      refine .frame rfl rfl fun key' hkey himage => ?_
      show (s.images.erase request.key).has key' = true
      rw [has_erase, decide_eq_false (Ne.symm hkey), himage]
      rfl
  | fallocate key size => exact hmodify key _
  | mkfs key uuid => exact hmodify key _
  | mkdir directory => exact hmounted _
  | chown directory => exact hmounted _
  | mountLoop loop =>
      simp only [Pool.effect]
      split <;> exact .frame rfl rfl fun _ _ himage => himage
  | _ => exact .frame rfl rfl fun _ _ himage => himage

theorem effectSpec_of_calls {op : PoolOp} (hop : Permitted request before op s) {answer : op.Answer}
    {s' : Pool} (hcalls : Pool.Calls op s answer s') : EffectSpec request s s' := by
  cases answer with
  | ok value =>
      obtain ⟨-, rfl⟩ := hcalls
      exact effectSpec hop value
  | error e =>
      rcases hcalls with rfl | ⟨value, -, rfl⟩
      · exact .frame rfl rfl fun _ _ himage => himage
      · exact effectSpec hop value

theorem fresh_of_permitted {op : PoolOp} (hop : Permitted request before op s) {key : String}
    (hformats : op.formats = some key) : before.images.get? key = none := by
  cases op with
  | fallocate key' size =>
      obtain rfl := Option.some.inj hformats
      exact hop.1 ▸ hop.2
  | mkfs key' uuid =>
      obtain rfl := Option.some.inj hformats
      exact hop.1 ▸ hop.2
  | _ => cases hformats

end Steps

/-- The pool stays accounted for, and every step does what its request may do. -/
theorem storage_accounts {m : StorageServer} (h : storageSystem.Reachable m) :
    Accounted m.store ∧ ∀ a m', storageSystem.step m a m' → StorageSpec m a m' := by
  obtain ⟨haccounted, hserving⟩ := served_invariant (I := Accounted)
    (A := Permitted) (Q := Attached)
    (fun s ⟨hpolicy, hrows, himages⟩ => ⟨fun policy hp => by simp [hpolicy] at hp,
      fun _ => by rw [hrows]; rfl, fun key hkey => by simp [himages, InsertionMap.has] at hkey⟩)
    (fun request s _ _ => safe_runStorageManager request s)
    (fun _ _ _ _ _ _ haccounted hop hcalls => haccounted.calls hop hcalls) h
  refine ⟨haccounted, fun a m' hstep => ?_⟩
  cases hstep with
  | begin s request hadmitted =>
      exact ⟨fun _ hp => hp, fun _ _ hrow _ => .inl hrow, (by simp), (by simp), (by simp), fun _ => rfl⟩
  | answer s s' request before op next answer hcalls =>
      obtain ⟨hop, -⟩ := hserving _ rfl
      have hspec := effectSpec_of_calls hop hcalls
      refine ⟨hspec.policy, hspec.ready, fun serving hmem op' answer' haction key hformats => ?_,
        fun serving hmem attachment hdone => ?_, fun serving hmem key hkey => ?_, (by simp)⟩
      · obtain rfl := Option.some.inj hmem
        obtain ⟨rfl, -⟩ := ServedAction.answer.inj haction
        exact fresh_of_permitted hop hformats
      · obtain rfl := Option.some.inj hmem
        cases hdone
      · obtain rfl := Option.some.inj hmem
        exact hspec.others key hkey
  | finish s request before result =>
      have hattached := hserving _ rfl
      refine ⟨fun _ hp => hp, fun _ _ hrow _ => .inl hrow, by simp,
        fun serving hmem attachment hdone => ?_, fun _ _ _ _ => ⟨rfl, id⟩, fun _ => rfl⟩
      obtain rfl := Option.some.inj hmem
      obtain rfl := Program.done.inj hdone
      exact hattached attachment rfl
  | kill s serving =>
      refine ⟨fun _ hp => hp, fun _ _ hrow _ => .inl hrow, by simp,
        fun serving' hmem attachment hdone => ?_, fun _ _ _ _ => ⟨rfl, id⟩, fun _ => rfl⟩
      obtain rfl := Option.some.inj hmem
      have hattached := hserving serving rfl
      rw [hdone] at hattached
      exact hattached attachment rfl

section Run

private def storageRequest : StorageRequest where
  action := .create
  key := "0123456789abcdef0123456789abcdef0123456789abcdef0123456789abcdef"
  uuid := "12345678-1234-1234-1234-123456789abc"
  size := 67108864
  budget := 134217728
  reserve := 0

private def emptyPool : Pool := {}

private theorem answered {s before : Pool} {request : StorageRequest}
    {program : StorageProgram (Option StorageAttachment)} {op : PoolOp}
    {next : op.Answer → StorageProgram (Option StorageAttachment)}
    (h : storageSystem.Reachable ⟨s, some ⟨request, before, program⟩⟩)
    (hprogram : program = Program.call op next) (value : op.Value) (hsucceeds : s.Succeeds op value) :
    storageSystem.Reachable ⟨s.effect op value, some ⟨request, before, next (.ok value)⟩⟩ := by
  subst hprogram
  have hcalls : Pool.Calls op s (.ok value) (s.effect op value) := ⟨hsucceeds, rfl⟩
  exact h.step (ServedStep.answer s (s.effect op value) request before op next (.ok value) hcalls)

/-- A request that is killed with its image there and not yet allocated. -/
theorem storage_accounts_killed : ∃ m : StorageServer, m.store.images.has storageRequest.key = true ∧
    m.serving = none ∧ Accounted m.store ∧ ∀ a m', storageSystem.step m a m' → StorageSpec m a m' := by
  have hadmitted : ∃ args, parseStorageRequest args = .ok storageRequest :=
    ⟨["create", storageRequest.key, storageRequest.uuid, "67108864", "134217728", "0"],
      by decide +kernel⟩
  have h₀ : storageSystem.Reachable ⟨emptyPool, none⟩ := .of_init ⟨⟨rfl, rfl, rfl⟩, rfl⟩
  have hbegin : ServedStep Pool.Calls (fun request => ∃ args, parseStorageRequest args = .ok request)
      runStorageManager ⟨emptyPool, none⟩ (.begin storageRequest)
      ⟨emptyPool, some ⟨storageRequest, emptyPool, runStorageManager storageRequest⟩⟩ :=
    .begin emptyPool storageRequest hadmitted
  have h₁ : storageSystem.Reachable ⟨emptyPool, some ⟨storageRequest, emptyPool, runStorageManager storageRequest⟩⟩ :=
    h₀.step hbegin
  have h₂ := answered h₁ rfl () trivial
  have h₃ := answered h₂ rfl false trivial
  have h₄ := answered h₃ rfl () trivial
  have h₅ := answered h₄ rfl () trivial
  have h₆ := answered h₅ rfl none rfl
  have h₇ := answered h₆ rfl none rfl
  have h₈ := answered h₇ rfl false trivial
  have h₉ := answered h₈ rfl () trivial
  have h₁₀ := answered h₉ rfl () trivial
  have h₁₁ := answered h₁₀ rfl false rfl
  have h₁₂ := answered h₁₁ rfl 0 rfl
  have h₁₃ := answered h₁₂ rfl 1000000000 trivial
  have h₁₄ := answered h₁₃ rfl () ⟨rfl, nofun⟩
  have h₁₅ := answered h₁₄ rfl () rfl
  have h₁₆ := h₁₅.step (ServedStep.kill _ _)
  exact ⟨_, rfl, rfl, storage_accounts h₁₆⟩

end Run

end VicoopBridge

import Mathlib.Algebra.Group.Action.Defs
import Mathlib.Algebra.Order.BigOperators.Group.List
import Mathlib.Algebra.Order.Ring.Nat
import VicoopBridge.Model.CallerFileDelivery

/-! # Delivered files and their budget

The sends of a task take their turns one by one, so the budget that a send has read is still
there when its file comes. The encodings of all files fit what is reserved for them. -/

namespace VicoopBridge.CallerFileDelivery

open Library

variable {config : CallerFileDeliveryOptions} {decode : String → List UInt8}
  {inferMimeFromPath : String → String} {d : CallerFileDelivery} {n : ℕ} {call : SendCall}

/-- The bytes of a file. -/
def size (decode : String → List UInt8) (artifact : FileArtifact) : ℕ :=
  (decode artifact.bytes).length

def delivered? (call : SendCall) : Option Delivered :=
  match call.stage with
  | .done (.ok delivered) => some delivered
  | _ => none

/-- What a send tells of the file that was emitted for it. -/
def told (decode : String → List UInt8) (artifact : FileArtifact) : Delivered :=
  ⟨artifact.artifactId, artifact.name, size decode artifact⟩

/-- The counters are those of the emitted files, and a read has room for what it may bring. -/
structure Budgeted (config : CallerFileDeliveryOptions) (decode : String → List UInt8)
    (d : CallerFileDelivery) : Prop where
  serial : ∀ {i j : ℕ} {ci cj : SendCall}, i < j → d.calls[i]? = some ci →
    d.calls[j]? = some cj → cj.stage ≠ .queued → ci.isDone = true
  files : d.files = d.emitted.length
  total : d.total = (d.emitted.map (size decode)).sum
  each : ∀ artifact ∈ d.emitted, size decode artifact ≤ config.maxBytes ∧
    String.ofList (Base64.encode (decode artifact.bytes)) = artifact.bytes
  count : d.files ≤ config.maxFiles
  sum : d.total ≤ config.maxTotalBytes
  room : ∀ call ∈ d.calls, ∀ request remaining, call.stage = .reading request remaining →
    d.files < config.maxFiles ∧ remaining = min config.maxBytes (config.maxTotalBytes - d.total)
  results : d.calls.filterMap delivered? = d.emitted.map (told decode)

/-! ## One send -/

/-- The call is the one whose turn it is. -/
structure Turn (d : CallerFileDelivery) (n : ℕ) (call : SendCall) : Prop where
  get : d.calls[n]? = some call
  before : ∀ {i : ℕ} {ci : SendCall}, i < n → d.calls[i]? = some ci → ci.isDone = true
  notDone : call.isDone = false

theorem getElem?_setStage (stage : SendStage) (i : ℕ) : (d.setStage n stage).calls[i]? =
    if n = i then d.calls[i]?.map fun call => { call with stage } else d.calls[i]? := by
  rw [setStage, List.getElem?_modify]
  split <;> simp

theorem delivered?_of_not_done (h : call.isDone = false) : delivered? call = none := by
  unfold delivered?
  unfold SendCall.isDone at h
  cases hstage : call.stage with
  | queued => rfl
  | reading request remaining => rfl
  | done result => simp [hstage] at h

/-- The calls behind the one whose turn it is have not begun. -/
theorem Budgeted.queued_after (h : Budgeted config decode d) (hturn : Turn d n call) {j : ℕ}
    {cj : SendCall} (hlt : n < j) (hj : d.calls[j]? = some cj) : cj.stage = .queued := by
  by_contra hstage
  have hdone := h.serial hlt hturn.get hj hstage
  rw [hturn.notDone] at hdone
  exact absurd hdone Bool.false_ne_true

theorem Budgeted.serial_setStage (h : Budgeted config decode d) (hturn : Turn d n call)
    (stage : SendStage) {i j : ℕ} {ci cj : SendCall} (hlt : i < j)
    (hi : (d.setStage n stage).calls[i]? = some ci) (hj : (d.setStage n stage).calls[j]? = some cj)
    (hstage : cj.stage ≠ .queued) : ci.isDone = true := by
  rw [getElem?_setStage] at hi hj
  by_cases hnj : n = j
  · rw [if_neg (by omega)] at hi
    exact hturn.before (by omega) hi
  · rw [if_neg hnj] at hj
    by_cases hni : n = i
    · subst hni
      exact absurd (h.queued_after hturn hlt hj) hstage
    · rw [if_neg hni] at hi
      exact h.serial hlt hi hj hstage

/-- The calls around the one whose turn it is: settled before it, waiting behind it. -/
theorem Turn.split (hturn : Turn d n call) (h : Budgeted config decode d) (stage : SendStage) :
    ∃ before after, d.calls = before ++ call :: after ∧
      (d.setStage n stage).calls = before ++ { call with stage } :: after ∧
      (∀ c ∈ before, c.isDone = true) ∧ ∀ c ∈ after, c.stage = .queued := by
  have hlt : n < d.calls.length := (List.getElem?_eq_some_iff.mp hturn.get).1
  have hget : d.calls[n] = call := (List.getElem?_eq_some_iff.mp hturn.get).2
  refine ⟨d.calls.take n, d.calls.drop (n + 1), ?_, ?_, fun c hc => ?_, fun c hc => ?_⟩
  · rw [← hget, List.cons_getElem_drop_succ, List.take_append_drop]
  · rw [setStage, List.modify_eq_take_cons_drop hlt, hget]
  · obtain ⟨k, hk⟩ := List.getElem?_of_mem hc
    rw [List.getElem?_take] at hk
    split at hk
    · rename_i hkn
      exact hturn.before hkn hk
    · simp at hk
  · obtain ⟨k, hk⟩ := List.getElem?_of_mem hc
    rw [List.getElem?_drop] at hk
    exact h.queued_after hturn (by omega) hk

theorem filterMap_delivered?_of_queued {calls : List SendCall}
    (h : ∀ c ∈ calls, c.stage = .queued) : calls.filterMap delivered? = [] := by
  refine List.filterMap_eq_nil_iff.mpr fun c hc => ?_
  rw [delivered?, h c hc]

/-- A stage that delivers nothing, and reads only where there is room. -/
theorem Budgeted.setStage (h : Budgeted config decode d) (hturn : Turn d n call)
    {stage : SendStage} (hnone : delivered? { call with stage } = none)
    (hroom : ∀ request remaining, stage = .reading request remaining →
      d.files < config.maxFiles ∧
        remaining = min config.maxBytes (config.maxTotalBytes - d.total)) :
    Budgeted config decode (d.setStage n stage) where
  serial := h.serial_setStage hturn stage
  files := h.files
  total := h.total
  each := h.each
  count := h.count
  sum := h.sum
  room := by
    obtain ⟨before, after, hcalls, hset, -, -⟩ := hturn.split h stage
    intro c hc request remaining hstage
    rw [hset, List.mem_append, List.mem_cons] at hc
    rcases hc with hc | rfl | hc
    · exact h.room c (by rw [hcalls]; simp [hc]) request remaining hstage
    · exact hroom request remaining hstage
    · exact h.room c (by rw [hcalls]; simp [hc]) request remaining hstage
  results := by
    obtain ⟨before, after, hcalls, hset, -, -⟩ := hturn.split h stage
    have hold := h.results
    rw [hcalls, List.filterMap_append,
      List.filterMap_cons_none (delivered?_of_not_done hturn.notDone)] at hold
    rw [hset, List.filterMap_append, List.filterMap_cons_none hnone]
    exact hold

theorem Budgeted.fail (h : Budgeted config decode d) (hturn : Turn d n call) (message : String) :
    Budgeted config decode (d.fail n message) :=
  h.setStage hturn rfl (by intro request remaining hstage; simp at hstage)

theorem unconfirmed_frame (d : CallerFileDelivery) : ∃ confirmed reported,
    d.unconfirmed = { d with cleanupConfirmed := confirmed, reported := reported } := by
  unfold unconfirmed
  split
  · exact ⟨_, _, rfl⟩
  · exact ⟨d.cleanupConfirmed, d.reported, rfl⟩

theorem Budgeted.unconfirmed_fail (h : Budgeted config decode d) (hturn : Turn d n call)
    (message : String) : Budgeted config decode (d.unconfirmed.fail n message) := by
  obtain ⟨confirmed, reported, hd⟩ := unconfirmed_frame d
  rw [hd]
  have hsame : Budgeted config decode
      { d with cleanupConfirmed := confirmed, reported := reported } :=
    ⟨h.serial, h.files, h.total, h.each, h.count, h.sum, h.room, h.results⟩
  have hturn' : Turn { d with cleanupConfirmed := confirmed, reported := reported } n call :=
    ⟨hturn.get, hturn.before, hturn.notDone⟩
  exact hsame.fail hturn' message

theorem Budgeted.begin (h : Budgeted config decode d) (hturn : Turn d n call) :
    Budgeted config decode (d.begin config n call) := by
  unfold CallerFileDelivery.begin
  split
  · exact h.fail hturn _
  · split
    · exact h.fail hturn _
    · split
      · exact h.fail hturn _
      · split
        · exact h.fail hturn _
        · rename_i hfiles
          dsimp only
          split
          · exact h.fail hturn _
          · refine h.setStage hturn rfl fun request remaining hstage => ?_
            obtain ⟨-, rfl⟩ := SendStage.reading.inj hstage
            exact ⟨by omega, rfl⟩

/-- A file within the limit of its read is accounted for. -/
theorem Budgeted.deliver (h : Budgeted config decode d) (hturn : Turn d n call)
    {request : SendRequest} {remaining : ℕ} (hstage : call.stage = .reading request remaining)
    {bytes : String} (hsize : (decode bytes).length ≤ remaining)
    (hbytes : String.ofList (Base64.encode (decode bytes)) = bytes) (artifactId : String) :
    Budgeted config decode (d.deliver decode inferMimeFromPath n request artifactId bytes) := by
  obtain ⟨hfiles, hremaining⟩ := h.room call (List.mem_of_getElem? hturn.get) _ _ hstage
  unfold CallerFileDelivery.deliver
  dsimp only
  split
  · exact h.fail hturn _
  · generalize hname : request.name.getD (basename request.path) = name
    generalize hartifact : FileArtifact.mk artifactId name (inferMimeFromPath request.path) bytes =
      artifact
    have hmine : size decode artifact = (decode bytes).length := by rw [← hartifact]; rfl
    obtain ⟨before, after, hcalls, hset, hbefore, hafter⟩ :=
      hturn.split h (.done (.ok ⟨artifactId, name, (decode bytes).length⟩))
    constructor
    · exact h.serial_setStage hturn _
    · change d.files + 1 = (d.emitted ++ [artifact]).length
      rw [List.length_append, ← h.files]
      rfl
    · change d.total + (decode bytes).length = ((d.emitted ++ [artifact]).map (size decode)).sum
      rw [List.map_append, List.sum_append, ← h.total, List.map_singleton, List.sum_singleton,
        hmine]
    · intro other hmem
      rcases List.mem_append.mp hmem with hmem | hmem
      · exact h.each other hmem
      · obtain rfl := List.mem_singleton.mp hmem
        refine ⟨?_, by rw [← hartifact]; exact hbytes⟩
        rw [hmine]
        omega
    · change d.files + 1 ≤ config.maxFiles
      omega
    · change d.total + (decode bytes).length ≤ config.maxTotalBytes
      have hsum := h.sum
      omega
    · intro c hc request' remaining' hreading
      change c ∈ (d.setStage n _).calls at hc
      rw [hset, List.mem_append, List.mem_cons] at hc
      rcases hc with hc | rfl | hc
      · have hdone := hbefore c hc
        simp [SendCall.isDone, hreading] at hdone
      · simp at hreading
      · simp [hafter c hc] at hreading
    · change (d.setStage n _).calls.filterMap delivered? =
        (d.emitted ++ [artifact]).map (told decode)
      have hold := h.results
      have hqueued := filterMap_delivered?_of_queued hafter
      rw [hcalls, List.filterMap_append,
        List.filterMap_cons_none (delivered?_of_not_done hturn.notDone), hqueued,
        List.append_nil] at hold
      have htold : told decode artifact = ⟨artifactId, name, (decode bytes).length⟩ := by
        rw [← hartifact]
        rfl
      rw [hset, List.filterMap_append, hold, List.map_append, List.map_singleton, htold,
        List.filterMap_cons_some (by rfl), hqueued]

theorem Budgeted.readDone (h : Budgeted config decode d) (hturn : Turn d n call)
    {request : SendRequest} {remaining : ℕ} (hstage : call.stage = .reading request remaining)
    (artifactId : String) (outcome : ReadOutcome) :
    Budgeted config decode (d.readDone decode inferMimeFromPath n call.execution request remaining
      artifactId outcome) := by
  cases outcome with
  | threw message => exact h.unconfirmed_fail hturn message
  | exited exitCode stdout =>
      unfold CallerFileDelivery.readDone
      dsimp only
      split
      · exact h.unconfirmed_fail hturn _
      · split
        · exact h.fail hturn _
        · split
          · exact h.fail hturn _
          · split
            · exact h.fail hturn _
            · exact h.fail hturn _
            · split
              · exact h.fail hturn _
              · rename_i hvalid
                rw [not_or, not_lt, ne_eq, not_not] at hvalid
                exact h.deliver hturn hstage hvalid.1 hvalid.2 artifactId

/-! ## Runs -/

theorem Budgeted.send (h : Budgeted config decode d) (input : Json) (execution : ℕ) :
    Budgeted config decode { d with calls := d.calls ++ [{ input, execution }] } where
  serial {i j ci cj} hlt hi hj hstage := by
    rw [List.getElem?_append] at hj
    split at hj
    · rename_i hjlt
      rw [List.getElem?_append_left (by omega)] at hi
      exact h.serial hlt hi hj hstage
    · obtain rfl : SendCall.mk input execution .queued = cj :=
        List.mem_singleton.mp (List.mem_of_getElem? hj) |>.symm
      exact absurd rfl hstage
  files := h.files
  total := h.total
  each := h.each
  count := h.count
  sum := h.sum
  room c hc request remaining hstage := by
    rcases List.mem_append.mp hc with hc | hc
    · exact h.room c hc request remaining hstage
    · obtain rfl := List.mem_singleton.mp hc
      simp at hstage
  results := by
    rw [List.filterMap_append, h.results]
    simp [delivered?]

theorem Budgeted.initial : Budgeted config decode {} where
  serial hlt hi := by simp at hi
  files := rfl
  total := rfl
  each artifact hmem := by simp at hmem
  count := Nat.zero_le _
  sum := Nat.zero_le _
  room c hc := by simp at hc
  results := rfl

theorem Budgeted.step (h : Budgeted config decode d) (a : Action) (henabled : d.enabled a = true) :
    Budgeted config decode (d.apply config decode inferMimeFromPath a) := by
  cases a with
  | send input execution => exact h.send input execution
  | begin n =>
      simp only [enabled, Bool.and_eq_true, decide_eq_true_eq, List.all_eq_true,
        Option.map_eq_some_iff] at henabled
      obtain ⟨⟨call, hcall, hstage⟩, hbefore⟩ := henabled
      simp only [apply, hcall]
      have hnotDone : call.isDone = false := by simp [SendCall.isDone, hstage]
      refine h.begin ⟨hcall, fun {i ci} hlt hi => hbefore ci ?_, hnotDone⟩
      exact List.mem_of_getElem? (by rw [List.getElem?_take, if_pos hlt]; exact hi)
  | readDone n artifactId outcome =>
      simp only [apply]
      split
      · rename_i input execution request remaining hcall
        have hnotQueued : (SendStage.reading request remaining) ≠ .queued := by simp
        exact h.readDone ⟨hcall, fun hlt hi => h.serial hlt hi hcall hnotQueued, rfl⟩ rfl
          artifactId outcome
      · exact h
  | abort => exact ⟨h.serial, h.files, h.total, h.each, h.count, h.sum, h.room, h.results⟩
  | abortExecution execution =>
      exact ⟨h.serial, h.files, h.total, h.each, h.count, h.sum, h.room, h.results⟩

theorem budgeted_of_reachable (h : (system config decode inferMimeFromPath).Reachable d) :
    Budgeted config decode d := by
  refine h.invariant (fun s hs => ?_) fun s a t hs hstep => ?_
  · obtain rfl := hs
    exact Budgeted.initial
  · obtain ⟨henabled, rfl⟩ := hstep
    exact hs.step a henabled

/-! ## What is reserved -/

/-- The characters of all the encodings. -/
def payload (d : CallerFileDelivery) : ℕ :=
  (d.emitted.map fun artifact => utf8Length artifact.bytes.toList).sum

theorem utf8Length_of_ascii {cs : List Char} (h : ∀ c ∈ cs, c.utf8Size = 1) :
    utf8Length cs = cs.length := by
  rw [utf8Length, List.map_congr_left h, List.map_const', List.sum_replicate, smul_eq_mul, mul_one]

theorem Budgeted.payload_eq (h : Budgeted config decode d) :
    d.payload = ((d.emitted.map (size decode)).map Base64.encodedLength).sum := by
  rw [payload, List.map_map]
  congr 1
  refine List.map_congr_left fun artifact hmem => ?_
  rw [← (h.each artifact hmem).2, String.toList_ofList,
    utf8Length_of_ascii (Base64.utf8Size_encode _), Base64.length_encode]
  rfl

/-- Every file is within its own limit, so together they are within all of them. -/
theorem Budgeted.sum_le (h : Budgeted config decode d) :
    (d.emitted.map (size decode)).sum ≤
      min config.maxTotalBytes (config.maxBytes * config.maxFiles) := by
  have hcount : d.emitted.length ≤ config.maxFiles := h.files ▸ h.count
  have heach := List.sum_le_card_nsmul (d.emitted.map (size decode)) config.maxBytes fun n hn => by
    obtain ⟨artifact, hmem, rfl⟩ := List.mem_map.mp hn
    exact (h.each artifact hmem).1
  rw [List.length_map, smul_eq_mul] at heach
  refine le_min (h.total ▸ h.sum) (heach.trans ?_)
  rw [Nat.mul_comm]
  exact Nat.mul_le_mul_left _ hcount

theorem Budgeted.payload_le (h : Budgeted config decode d) : d.payload ≤ config.encoded := by
  rw [h.payload_eq]
  refine Base64.sum_encodedLength_le h.sum_le ?_
  rw [List.length_map, ← h.files]
  exact h.count

theorem callerFilePendingBytes_eq_ok {maxExecutions budget : ℕ}
    (h : callerFilePendingBytes (some config) maxExecutions = .ok (some budget)) :
    maxExecutions * (config.encoded + config.metadataBytes) ≤ budget := by
  simp only [callerFilePendingBytes] at h
  split at h
  · simp at h
  · split at h
    · simp at h
    · obtain rfl := Option.some.inj (Except.ok.inj h)
      exact le_max_right _ _

/-- The tasks that run at once, each with what its artifacts carry beside the files. -/
theorem sum_payload_le {deliveries : List CallerFileDelivery}
    (h : ∀ d ∈ deliveries, Budgeted config decode d) {maxExecutions budget : ℕ}
    (hcount : deliveries.length ≤ maxExecutions)
    (hbudget : callerFilePendingBytes (some config) maxExecutions = .ok (some budget)) :
    (deliveries.map payload).sum + deliveries.length * config.metadataBytes ≤ budget := by
  have hsum := List.sum_le_card_nsmul (deliveries.map payload) config.encoded fun n hn => by
    obtain ⟨d, hd, rfl⟩ := List.mem_map.mp hn
    exact (h d hd).payload_le
  rw [List.length_map, smul_eq_mul] at hsum
  calc (deliveries.map payload).sum + deliveries.length * config.metadataBytes
      ≤ deliveries.length * config.encoded + deliveries.length * config.metadataBytes :=
        Nat.add_le_add_right hsum _
    _ = deliveries.length * (config.encoded + config.metadataBytes) := (Nat.mul_add _ _ _).symm
    _ ≤ maxExecutions * (config.encoded + config.metadataBytes) := Nat.mul_le_mul_right _ hcount
    _ ≤ budget := callerFilePendingBytes_eq_ok hbudget

/-- The files of a task: as many as its budget has counted, each the one that a send has told of,
and all within the limits. A send that failed is not among them. -/
structure Within (config : CallerFileDeliveryOptions) (decode : String → List UInt8)
    (d : CallerFileDelivery) : Prop where
  count : d.emitted.length ≤ config.maxFiles
  each : ∀ artifact ∈ d.emitted, size decode artifact ≤ config.maxBytes
  total : (d.emitted.map (size decode)).sum ≤ config.maxTotalBytes
  files : d.files = d.emitted.length
  spent : d.total = (d.emitted.map (size decode)).sum
  results : d.calls.filterMap delivered? = d.emitted.map (told decode)

/-- Whatever the order of the sends and however their reads end: the files of a task stay within
its limits and no failed send holds any of them, and the encodings of all tasks that run at once
fit what is reserved, with room for what their artifacts carry beside the files. -/
theorem stays_in_budget (config : CallerFileDeliveryOptions) (decode : String → List UInt8)
    (inferMimeFromPath : String → String) :
    (∀ d, (system config decode inferMimeFromPath).Reachable d → Within config decode d) ∧
    ∀ maxExecutions budget (deliveries : List CallerFileDelivery),
      callerFilePendingBytes (some config) maxExecutions = .ok (some budget) →
      deliveries.length ≤ maxExecutions →
      (∀ d ∈ deliveries, (system config decode inferMimeFromPath).Reachable d) →
      (deliveries.map payload).sum + deliveries.length * config.metadataBytes ≤ budget := by
  refine ⟨fun d h => ?_, fun maxExecutions budget deliveries hbudget hcount h => ?_⟩
  · have hd := budgeted_of_reachable h
    exact ⟨hd.files ▸ hd.count, fun artifact hmem => (hd.each artifact hmem).1,
      hd.total ▸ hd.sum, hd.files, hd.total, hd.results⟩
  · exact sum_payload_le (fun d hd => budgeted_of_reachable (h d hd)) hcount hbudget

def smallFiles : CallerFileDeliveryOptions :=
  ⟨["/workspace/output"], 3, 4, 2, by decide, by decide, by decide⟩

/-- Three sends at once, of which the last finds no budget left. -/
def threeSends : List Action :=
  [.send (.obj [("path", .str "/workspace/output/a")]) 0,
    .send (.obj [("path", .str "/workspace/output/b"), ("name", .str "B")]) 0,
    .send (.obj [("path", .str "/workspace/output/c")]) 1, .begin 0,
    .readDone 0 "1" (.exited 0 (some (.obj [("bytes", .str "AQID")]))), .begin 1,
    .readDone 1 "2" (.exited 0 (some (.obj [("bytes", .str "AQ==")]))), .begin 2]

/-- `Buffer.from(_, 'base64')` on the texts of the example. -/
def decodeExample (text : String) : List UInt8 := if text = "AQID" then [1, 2, 3] else [1]

theorem stays_in_budget_example :
    ∃ d, (system smallFiles decodeExample id).Reachable d ∧
      d.emitted.map (·.bytes) = ["AQID", "AQ=="] ∧ Within smallFiles decodeExample d ∧
      ([d, d].map payload).sum + 2 * smallFiles.metadataBytes ≤ 4 * 1024 * 1024 := by
  have hreachable : (system smallFiles decodeExample id).Reachable
      (threeSends.foldl (apply smallFiles decodeExample id) {}) :=
    System.Legal.reachable (by decide +kernel) (.of_init rfl)
  have hbudget := stays_in_budget smallFiles decodeExample id
  refine ⟨_, hreachable, by decide +kernel, hbudget.1 _ hreachable,
    hbudget.2 2 _ [_, _] (by decide +kernel) le_rfl ?_⟩
  simpa using hreachable

end VicoopBridge.CallerFileDelivery

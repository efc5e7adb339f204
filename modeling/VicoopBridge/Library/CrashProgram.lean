import VicoopBridge.Library.Transition

/-! # Programs that can be killed

A program calls operations of its environment one by one and goes on with their answers, exceptions among
them. It may be killed between any two calls; what it has done so far stays. One program runs at a
time. -/

namespace VicoopBridge.Library

universe u v w x y

inductive Program (Op : Type u) (Answer : Op → Type v) (ε : Type w) (α : Type x) :
    Type (max u v w x) where
  | done (result : Except ε α)
  | call (op : Op) (next : Answer op → Program Op Answer ε α)

namespace Program

variable {Op : Type u} {Answer : Op → Type v} {ε : Type w} {α β : Type x}

/-- Go on with what the program ends with, be it an exception. -/
def andThen : Program Op Answer ε α → (Except ε α → Program Op Answer ε β) → Program Op Answer ε β
  | .done result, f => f result
  | .call op next, f => .call op fun a => (next a).andThen f

instance : Monad (Program Op Answer ε) where
  pure a := .done (.ok a)
  bind p f := p.andThen fun result =>
    match result with
    | .ok a => f a
    | .error e => .done (.error e)

def throw (e : ε) : Program Op Answer ε α := .done (.error e)

/-- The second program runs however the first one ends; its exception takes the place of the outcome. -/
def tryFinally (p : Program Op Answer ε α) (last : Program Op Answer ε β) : Program Op Answer ε α :=
  p.andThen fun result => last.andThen fun ended =>
    match ended with
    | .ok _ => .done result
    | .error e => .done (.error e)

/-! ## What a program may do -/

section Safety

variable {σ : Type y} {sem : (op : Op) → σ → Answer op → σ → Prop} {allowed : Op → σ → Prop}

/-- Every call the program comes to is allowed where it is made, and it ends as `post` says. -/
def Safe (sem : (op : Op) → σ → Answer op → σ → Prop) (allowed : Op → σ → Prop)
    (post : Except ε α → σ → Prop) : Program Op Answer ε α → σ → Prop
  | .done result, s => post result s
  | .call op next, s => allowed op s ∧ ∀ a s', sem op s a s' → Safe sem allowed post (next a) s'

/-- Nothing is promised of a program that ends with an exception. -/
def Returns (post : α → σ → Prop) : Except ε α → σ → Prop
  | .ok a, s => post a s
  | .error _, _ => True

theorem Safe.andThen {p : Program Op Answer ε α} {f : Except ε α → Program Op Answer ε β}
    {R : Except ε α → σ → Prop} {post : Except ε β → σ → Prop} {s : σ}
    (h : Safe sem allowed R p s)
    (hf : ∀ result s, R result s → Safe sem allowed post (f result) s) :
    Safe sem allowed post (p.andThen f) s := by
  induction p generalizing s with
  | done result => exact hf result s h
  | call op next ih => exact ⟨h.1, fun a s' hsem => ih a (h.2 a s' hsem)⟩

theorem Safe.bind {p : Program Op Answer ε α} {f : α → Program Op Answer ε β}
    {R : α → σ → Prop} {post : β → σ → Prop} {s : σ} (h : Safe sem allowed (Returns R) p s)
    (hf : ∀ a s, R a s → Safe sem allowed (Returns post) (f a) s) :
    Safe sem allowed (Returns post) (p >>= f) s := by
  refine h.andThen fun result s hmid => ?_
  cases result with
  | ok a => exact hf a s hmid
  | error e => trivial

theorem Safe.pure {post : α → σ → Prop} {a : α} {s : σ} (h : post a s) :
    Safe sem allowed (Returns post) (Pure.pure a : Program Op Answer ε α) s := h

theorem Safe.throw {post : α → σ → Prop} {e : ε} {s : σ} :
    Safe sem allowed (Returns post) (Program.throw e : Program Op Answer ε α) s := trivial

theorem Safe.mono {p : Program Op Answer ε α} {post post' : α → σ → Prop} {s : σ}
    (h : Safe sem allowed (Returns post) p s) (hpost : ∀ a s, post a s → post' a s) :
    Safe sem allowed (Returns post') p s := by
  induction p generalizing s with
  | done result =>
      cases result with
      | ok a => exact hpost a s h
      | error e => trivial
  | call op next ih => exact ⟨h.1, fun a s' hsem => ih a (h.2 a s' hsem)⟩

theorem Safe.tryFinally {p : Program Op Answer ε α} {last : Program Op Answer ε β}
    {R post : α → σ → Prop} {s : σ} (h : Safe sem allowed (Returns R) p s)
    (hok : ∀ a s, R a s → Safe sem allowed (Returns fun _ => post a) last s)
    (hlast : ∀ s, Safe sem allowed (Returns fun _ _ => True) last s) :
    Safe sem allowed (Returns post) (p.tryFinally last) s := by
  refine h.andThen fun result s hmid => ?_
  cases result with
  | ok a =>
      refine (hok a s hmid).andThen fun ended s hended => ?_
      cases ended with
      | ok _ => exact hended
      | error e => trivial
  | error e =>
      refine (hlast s).andThen fun ended s _ => ?_
      cases ended <;> trivial

/-! ## One run -/

/-- What a program and its environment may have come to. -/
inductive Run (sem : (op : Op) → σ → Answer op → σ → Prop) :
    Program Op Answer ε α → σ → Program Op Answer ε α → σ → Prop where
  | refl (p : Program Op Answer ε α) (s : σ) : Run sem p s p s
  | call {op : Op} {next : Answer op → Program Op Answer ε α} {s s' : σ} {a : Answer op}
      {q : Program Op Answer ε α} {t : σ} : sem op s a s' → Run sem (next a) s' q t →
      Run sem (.call op next) s q t

/-- A safe program stays safe, and keeps what its calls keep. -/
theorem Safe.run {p q : Program Op Answer ε α} {post : Except ε α → σ → Prop} {I : σ → Prop}
    {s t : σ} (h : Safe sem allowed post p s) (hI : I s)
    (hkeep : ∀ op s a s', I s → allowed op s → sem op s a s' → I s')
    (hrun : Run sem p s q t) : Safe sem allowed post q t ∧ I t := by
  induction hrun with
  | refl p s => exact ⟨h, hI⟩
  | call hsem _ ih => exact ih (h.2 _ _ hsem) (hkeep _ _ _ _ hI h.1 hsem)

end Safety

end Program

/-! ## One program after the other -/

structure Serving (ρ : Type u) (σ : Type v) (π : Type w) where
  request : ρ
  /-- What the request found. -/
  before : σ
  program : π

/-- What is stored, and the program at work on it. -/
structure Served (ρ : Type u) (σ : Type v) (π : Type w) where
  store : σ
  serving : Option (Serving ρ σ π) := none

inductive ServedAction (ρ : Type u) (Op : Type v) (Answer : Op → Type w) where
  | begin (request : ρ)
  | answer (op : Op) (a : Answer op)
  | finish
  | kill

section Served

variable {ρ : Type u} {σ : Type v} {Op : Type w} {Answer : Op → Type x} {ε : Type y} {α : Type u}

/-- Requests are served one at a time. -/
inductive ServedStep (sem : (op : Op) → σ → Answer op → σ → Prop) (admitted : ρ → Prop)
    (program : ρ → Program Op Answer ε α) :
    Served ρ σ (Program Op Answer ε α) → ServedAction ρ Op Answer →
      Served ρ σ (Program Op Answer ε α) → Prop where
  | begin (s : σ) (request : ρ) (h : admitted request) :
      ServedStep sem admitted program ⟨s, none⟩ (.begin request)
        ⟨s, some ⟨request, s, program request⟩⟩
  | answer (s s' : σ) (request : ρ) (before : σ) (op : Op)
      (next : Answer op → Program Op Answer ε α) (a : Answer op) (h : sem op s a s') :
      ServedStep sem admitted program ⟨s, some ⟨request, before, .call op next⟩⟩ (.answer op a)
        ⟨s', some ⟨request, before, next a⟩⟩
  | finish (s : σ) (request : ρ) (before : σ) (result : Except ε α) :
      ServedStep sem admitted program ⟨s, some ⟨request, before, .done result⟩⟩ .finish ⟨s, none⟩
  | kill (s : σ) (serving : Serving ρ σ (Program Op Answer ε α)) :
      ServedStep sem admitted program ⟨s, some serving⟩ .kill ⟨s, none⟩

def servedSystem (init : σ → Prop) (sem : (op : Op) → σ → Answer op → σ → Prop)
    (admitted : ρ → Prop) (program : ρ → Program Op Answer ε α) :
    System (Served ρ σ (Program Op Answer ε α)) (ServedAction ρ Op Answer) where
  init m := init m.store ∧ m.serving = none
  step := ServedStep sem admitted program

/-- If every request is safe wherever the invariant holds, and what is allowed keeps the invariant, then
it holds whatever was finished and whatever was killed. -/
theorem served_invariant {init I : σ → Prop} {sem : (op : Op) → σ → Answer op → σ → Prop}
    {admitted : ρ → Prop} {program : ρ → Program Op Answer ε α}
    {A : ρ → σ → Op → σ → Prop} {Q : ρ → α → σ → Prop} (hinit : ∀ s, init s → I s)
    (hsafe : ∀ request s, admitted request → I s →
      Program.Safe sem (A request s) (Program.Returns (Q request)) (program request) s)
    (hkeep : ∀ request before op s a s', I s → A request before op s → sem op s a s' → I s')
    {m : Served ρ σ (Program Op Answer ε α)}
    (h : (servedSystem init sem admitted program).Reachable m) :
    I m.store ∧ ∀ serving ∈ m.serving, Program.Safe sem (A serving.request serving.before)
      (Program.Returns (Q serving.request)) serving.program m.store := by
  refine h.invariant (I := fun m => I m.store ∧ ∀ serving ∈ m.serving,
    Program.Safe sem (A serving.request serving.before)
      (Program.Returns (Q serving.request)) serving.program m.store) ?_ ?_
  · rintro m ⟨hstart, hidle⟩
    exact ⟨hinit m.store hstart, by simp [hidle]⟩
  · rintro m a m' ⟨hinv, hserving⟩ hstep
    cases hstep with
    | begin s request hadmitted =>
        refine ⟨hinv, fun serving hmem => ?_⟩
        obtain rfl := Option.some.inj hmem
        exact hsafe request s hadmitted hinv
    | answer s s' request before op next a hsem =>
        obtain ⟨hallowed, hnext⟩ := hserving _ rfl
        refine ⟨hkeep request before op s a s' hinv hallowed hsem, fun serving hmem => ?_⟩
        obtain rfl := Option.some.inj hmem
        exact hnext a s' hsem
    | finish s request before result => exact ⟨hinv, nofun⟩
    | kill s serving => exact ⟨hinv, nofun⟩

end Served

end VicoopBridge.Library

import Mathlib.Data.List.Basic
import Mathlib.Tactic.Common

/-!
# Computations that note what they do

A computation on a state returns a value and notes its events, such as the places of an
array that it reads and writes. A triple says what is noted from the states that meet a
condition, and how the computation ends.
-/

namespace MeterLogger

def Noted (E S A : Type*) := S → A × S × List E

namespace Noted

variable {E S A B : Type*}

def value (m : Noted E S A) (s : S) : A := (m s).1

def final (m : Noted E S A) (s : S) : S := (m s).2.1

def notes (m : Noted E S A) (s : S) : List E := (m s).2.2

def ret (a : A) : Noted E S A := fun s => (a,s,[])

def andThen (m : Noted E S A) (f : A → Noted E S B) : Noted E S B := fun s =>
  ((f (m.value s)).value (m.final s),(f (m.value s)).final (m.final s),
    m.notes s ++ (f (m.value s)).notes (m.final s))

def look (e : E) (f : S → A) : Noted E S A := fun s => (f s,s,[e])

def change (e : E) (f : S → S) : Noted E S Unit := fun s => ((),f s,[e])

/-- Change the state in a way that is not noted. -/
def alter (f : S → S) : Noted E S Unit := fun s => ((),f s,[])

instance {E S : Type*} : Monad (Noted E S) where
  pure := ret
  bind := andThen

section Equations

variable (m : Noted E S A) (a : A) (e : E) (s : S)

@[simp] theorem value_pure : (pure a : Noted E S A).value s = a := rfl

@[simp] theorem final_pure : (pure a : Noted E S A).final s = s := rfl

@[simp] theorem notes_pure : (pure a : Noted E S A).notes s = [] := rfl

@[simp] theorem value_look (f : S → A) : (look e f).value s = f s := rfl

@[simp] theorem final_look (f : S → A) : (look e f).final s = s := rfl

@[simp] theorem notes_look (f : S → A) : (look e f).notes s = [e] := rfl

@[simp] theorem final_change (f : S → S) : (change e f).final s = f s := rfl

@[simp] theorem notes_change (f : S → S) : (change e f).notes s = [e] := rfl

@[simp] theorem final_alter (f : S → S) : (alter f : Noted E S Unit).final s = f s := rfl

@[simp] theorem notes_alter (f : S → S) : (alter f : Noted E S Unit).notes s = [] := rfl

end Equations

section Bind

variable {A B : Type} {E S : Type*} (m : Noted E S A) (f : A → Noted E S B) (s : S)

@[simp] theorem value_bind : (m >>= f).value s = (f (m.value s)).value (m.final s) := rfl

@[simp] theorem final_bind : (m >>= f).final s = (f (m.value s)).final (m.final s) := rfl

@[simp] theorem notes_bind :
    (m >>= f).notes s = m.notes s ++ (f (m.value s)).notes (m.final s) := rfl

end Bind

/-- From a state with `pre` only events with `ok` are noted, and value and state end with
`post`. -/
def Triple (pre : S → Prop) (m : Noted E S A) (ok : E → Prop) (post : A → S → Prop) : Prop :=
  ∀ s, pre s → (∀ e ∈ m.notes s, ok e) ∧ post (m.value s) (m.final s)

namespace Triple

variable {pre pre' : S → Prop} {ok : E → Prop} {post post' : A → S → Prop}

theorem weaken {m : Noted E S A} (h : Triple pre m ok post) (hpre : ∀ s, pre' s → pre s)
    (hpost : ∀ a s, post a s → post' a s) : Triple pre' m ok post' := by
  intro s hs
  obtain ⟨hok,hend⟩ := h s (hpre s hs)
  exact ⟨hok,hpost _ _ hend⟩

theorem assume {p : Prop} {m : Noted E S A} (h : p → Triple pre m ok post) :
    Triple (fun s => p ∧ pre s) m ok post := by
  rintro s ⟨hp,hs⟩
  exact h hp s hs

end Triple

theorem triple_look {pre : S → Prop} {ok : E → Prop} {e : E} (he : ok e) (f : S → A) :
    Triple pre (look e f) ok fun a s => a = f s ∧ pre s := by
  intro s hs
  refine ⟨?_,rfl,hs⟩
  simpa using he

theorem triple_change {pre post : S → Prop} {ok : E → Prop} {e : E} {f : S → S} (he : ok e)
    (h : ∀ s, pre s → post (f s)) : Triple pre (change e f) ok fun _ s => post s := by
  intro s hs
  refine ⟨?_,h s hs⟩
  simpa using he

section Rules

variable {A B : Type} {E S : Type*} {pre : S → Prop} {ok : E → Prop} {mid : A → S → Prop}
  {post : B → S → Prop}

theorem triple_pure {a : A} (h : ∀ s, pre s → mid a s) : Triple pre (pure a) ok mid := by
  intro s hs
  refine ⟨?_,h s hs⟩
  simp

theorem triple_bind {m : Noted E S A} {f : A → Noted E S B} (hm : Triple pre m ok mid)
    (hf : ∀ a, Triple (mid a) (f a) ok post) : Triple pre (m >>= f) ok post := by
  intro s hs
  obtain ⟨hok,hmid⟩ := hm s hs
  obtain ⟨hok',hpost⟩ := hf _ _ hmid
  refine ⟨?_,hpost⟩
  intro e he
  rw [notes_bind,List.mem_append] at he
  rcases he with he | he
  · exact hok e he
  · exact hok' e he

end Rules

end Noted
end MeterLogger

import Mathlib.Data.List.Induction
import Mathlib.Tactic.Common

/-!
# A four-step handshake over lossy channels

A sender puts an item under an id and sends it until it learns that it was received; then it
releases the id until it learns that the exchange is complete. The channels keep the order and may
lose what is at their end. The receiver here remembers nothing: it takes every item that arrives.
What is shown for one id at a time is which runs make it take an item twice.
-/

namespace MeterLogger
namespace Handshake

variable {Id : Type*} [DecidableEq Id]

/-- Items taken and ids released, in order. -/
inductive Item (Id : Type*)
  | data (id : Id)
  | release (id : Id)
  deriving DecidableEq

/-- No item is taken under an id that was not released since the last one. -/
def AtMostOnce (items : List (Item Id)) : Prop :=
  ∀ xs ys zs id, items = xs ++ .data id::(ys ++ .data id::zs) → .release id ∈ ys

def note (id : Id) (opened : Bool) : Item Id → Bool
  | .data i => if i = id then true else opened
  | .release i => if i = id then false else opened

/-- An item was taken under the id, and the id was not released since. -/
def isOpen (items : List (Item Id)) (id : Id) : Bool := items.foldl (note id) false

section Items

variable {items new : List (Item Id)} {id i : Id}

theorem isOpen_append : isOpen (items ++ new) id = new.foldl (note id) (isOpen items id) :=
  List.foldl_append

@[simp] theorem isOpen_data :
    isOpen (items ++ [.data i]) id = if i = id then true else isOpen items id := by
  simp [isOpen_append,note]

@[simp] theorem isOpen_release :
    isOpen (items ++ [.release i]) id = if i = id then false else isOpen items id := by
  simp [isOpen_append,note]

theorem release_mem_of_closed (h : isOpen items id = false) {xs ys : List (Item Id)}
    (heq : items = xs ++ .data id::ys) : .release id ∈ ys := by
  induction ys using List.reverseRecOn generalizing items with
  | nil =>
    subst heq
    rw [isOpen_data,if_pos rfl] at h
    cases h
  | append_singleton ys y ih =>
    have hsplit : items = (xs ++ .data id::ys) ++ [y] := by simp [heq]
    subst hsplit
    cases y with
    | data i =>
      rw [isOpen_data] at h
      split at h
      · cases h
      · exact List.mem_append_left _ (ih h rfl)
    | release i =>
      rw [isOpen_release] at h
      split at h
      · rename_i hi
        subst hi
        simp
      · exact List.mem_append_left _ (ih h rfl)

omit [DecidableEq Id] in
theorem AtMostOnce.nil : AtMostOnce ([] : List (Item Id)) := by
  intro xs ys zs id h
  simp at h

omit [DecidableEq Id] in
theorem AtMostOnce.release (h : AtMostOnce items) : AtMostOnce (items ++ [.release i]) := by
  intro xs ys zs id heq
  cases zs using List.reverseRecOn with
  | nil =>
    have hsplit : items ++ [.release i] = (xs ++ .data id::ys) ++ [.data id] := by simp [heq]
    cases (List.append_inj' hsplit rfl).2
  | append_singleton zs z =>
    refine h xs ys zs id ?_
    have hsplit : items ++ [.release i] = (xs ++ .data id::(ys ++ .data id::zs)) ++ [z] := by
      simp [heq]
    exact (List.append_inj' hsplit rfl).1

theorem AtMostOnce.data (h : AtMostOnce items) (hclosed : isOpen items i = false) :
    AtMostOnce (items ++ [.data i]) := by
  intro xs ys zs id heq
  cases zs using List.reverseRecOn with
  | nil =>
    have hsplit : items ++ [.data i] = (xs ++ .data id::ys) ++ [.data id] := by simp [heq]
    obtain ⟨hitems,hlast⟩ := List.append_inj' hsplit rfl
    obtain rfl : i = id := by simpa using hlast
    exact release_mem_of_closed hclosed hitems
  | append_singleton zs z =>
    refine h xs ys zs id ?_
    have hsplit : items ++ [.data i] = (xs ++ .data id::(ys ++ .data id::zs)) ++ [z] := by
      simp [heq]
    exact (List.append_inj' hsplit rfl).1

end Items

/-- The sender: the id is free, the item is not known to be received, or it is. -/
inductive Phase
  | free
  | publishing
  | releasing
  deriving DecidableEq

/-- What is on its way to the receiver, for one id. -/
inductive Request
  | publish
  | release
  deriving DecidableEq

/-- What is on its way to the sender, for one id. -/
inductive Reply
  | received
  | complete
  deriving DecidableEq

/-- How the phase, the receiver and what is on its way go together. -/
def Fits (phase : Phase) (opened : Bool) (requests : List Request) (replies : List Reply) : Prop :=
  match phase with
  | .free => opened = false ∧ .publish ∉ requests ∧ .received ∉ replies
  | .publishing =>
    (opened = false ∧ .received ∉ replies ∧
      ∃ rs, .publish ∉ rs ∧ (requests = rs ∨ requests = rs ++ [.publish])) ∨
    (opened = true ∧ requests = [] ∧
      ∃ cs, .received ∉ cs ∧ (replies = cs ∨ replies = cs ++ [.received]))
  | .releasing => .publish ∉ requests ∧ .received ∉ replies ∧ (.complete ∈ replies → opened = false)

namespace Fits

variable {phase : Phase} {opened : Bool} {requests requests' : List Request} {replies : List Reply}

/-- Nothing was taken and nothing is on its way, whatever the sender remembers. -/
theorem start (phase : Phase) : Fits phase false [] [] := by
  cases phase with
  | free => exact ⟨rfl,List.not_mem_nil,List.not_mem_nil⟩
  | publishing => exact Or.inl ⟨rfl,List.not_mem_nil,[],List.not_mem_nil,Or.inl rfl⟩
  | releasing => exact ⟨List.not_mem_nil,List.not_mem_nil,fun _ => rfl⟩

theorem sublist (h : Fits phase opened requests replies) (hs : requests'.Sublist requests) :
    Fits phase opened requests' replies := by
  cases phase with
  | free => exact ⟨h.1,fun hm => h.2.1 (hs.subset hm),h.2.2⟩
  | publishing =>
    rcases h with ⟨ho,hr,rs,hrs,heq⟩ | ⟨ho,hnil,hc⟩
    · refine Or.inl ⟨ho,hr,?_⟩
      rcases heq with rfl | rfl
      · exact ⟨requests',fun hm => hrs (hs.subset hm),Or.inl rfl⟩
      · obtain ⟨xs,ys,rfl,hx,hy⟩ := List.sublist_append_iff.mp hs
        refine ⟨xs,fun hm => hrs (hx.subset hm),?_⟩
        cases hy with
        | cons _ hnil =>
          rw [List.sublist_nil.mp hnil]
          exact Or.inl (List.append_nil xs)
        | cons_cons _ hnil =>
          rw [List.sublist_nil.mp hnil]
          exact Or.inr rfl
    · rw [hnil] at hs
      exact Or.inr ⟨ho,List.sublist_nil.mp hs,hc⟩
  | releasing => exact ⟨fun hm => h.1 (hs.subset hm),h.2⟩

theorem cut (h : Fits phase opened requests replies) : Fits phase opened requests [] := by
  cases phase with
  | free => exact ⟨h.1,h.2.1,List.not_mem_nil⟩
  | publishing =>
    rcases h with ⟨ho,_,hrs⟩ | ⟨ho,hnil,_⟩
    · exact Or.inl ⟨ho,List.not_mem_nil,hrs⟩
    · exact Or.inr ⟨ho,hnil,[],List.not_mem_nil,Or.inl rfl⟩
  | releasing => exact ⟨h.1,List.not_mem_nil,fun hm => absurd hm List.not_mem_nil⟩

/-- An item that arrives is taken under a closed id; its reply is sent or not. -/
theorem take (h : Fits phase opened (.publish::requests) replies) :
    opened = false ∧ Fits phase true requests replies ∧
      Fits phase true requests (replies ++ [.received]) := by
  cases phase with
  | free => exact absurd List.mem_cons_self h.2.1
  | publishing =>
    rcases h with ⟨ho,hr,rs,hrs,heq⟩ | ⟨_,hnil,_⟩
    · have hrest : requests = [] := by
        rcases heq with heq | heq
        · exact absurd (by rw [← heq]; exact List.mem_cons_self) hrs
        · cases rs with
          | nil =>
            rw [List.nil_append,List.cons.injEq] at heq
            exact heq.2
          | cons r rs =>
            rw [List.cons_append,List.cons.injEq] at heq
            exact absurd (by rw [← heq.1]; exact List.mem_cons_self) hrs
      exact ⟨ho,Or.inr ⟨rfl,hrest,replies,hr,Or.inl rfl⟩,
        Or.inr ⟨rfl,hrest,replies,hr,Or.inr rfl⟩⟩
    · cases hnil
  | releasing => exact absurd List.mem_cons_self h.1

theorem close (h : Fits phase opened (.release::requests) replies) :
    Fits phase false requests replies ∧ Fits phase false requests (replies ++ [.complete]) := by
  cases phase with
  | free =>
    have hp : .publish ∉ requests := fun hm => h.2.1 (List.mem_cons_of_mem _ hm)
    exact ⟨⟨rfl,hp,h.2.2⟩,rfl,hp,by simp [h.2.2]⟩
  | publishing =>
    rcases h with ⟨_,hr,rs,hrs,heq⟩ | ⟨_,hnil,_⟩
    · have hrest : ∃ rs, .publish ∉ rs ∧ (requests = rs ∨ requests = rs ++ [.publish]) := by
        cases rs with
        | nil => simp at heq
        | cons r rs =>
          refine ⟨rs,fun hm => hrs (List.mem_cons_of_mem _ hm),?_⟩
          rw [List.cons_append,List.cons.injEq,List.cons.injEq] at heq
          exact heq.imp And.right And.right
      exact ⟨Or.inl ⟨rfl,hr,hrest⟩,Or.inl ⟨rfl,by simp [hr],hrest⟩⟩
    · cases hnil
  | releasing =>
    have hp : .publish ∉ requests := fun hm => h.1 (List.mem_cons_of_mem _ hm)
    exact ⟨⟨hp,h.2.1,fun _ => rfl⟩,hp,by simp [h.2.1],fun _ => rfl⟩

theorem received (h : Fits phase opened requests (.received::replies)) :
    phase = .publishing ∧ Fits .releasing opened (requests ++ [.release]) replies := by
  cases phase with
  | free => exact absurd List.mem_cons_self h.2.2
  | publishing =>
    rcases h with ⟨_,hr,_⟩ | ⟨_,rfl,cs,hcs,heq⟩
    · exact absurd List.mem_cons_self hr
    · have hrest : replies = [] := by
        rcases heq with heq | heq
        · exact absurd (by rw [← heq]; exact List.mem_cons_self) hcs
        · cases cs with
          | nil =>
            rw [List.nil_append,List.cons.injEq] at heq
            exact heq.2
          | cons c cs =>
            rw [List.cons_append,List.cons.injEq] at heq
            exact absurd (by rw [← heq.1]; exact List.mem_cons_self) hcs
      subst hrest
      exact ⟨rfl,by simp,List.not_mem_nil,fun hm => absurd hm List.not_mem_nil⟩
  | releasing => exact absurd List.mem_cons_self h.2.1

theorem complete (h : Fits phase opened requests (.complete::replies)) :
    Fits (if phase = .releasing then .free else phase) opened requests replies := by
  cases phase with
  | free => exact ⟨h.1,h.2.1,fun hm => h.2.2 (List.mem_cons_of_mem _ hm)⟩
  | publishing =>
    rcases h with ⟨ho,hr,hrs⟩ | ⟨ho,hnil,cs,hcs,heq⟩
    · exact Or.inl ⟨ho,fun hm => hr (List.mem_cons_of_mem _ hm),hrs⟩
    · refine Or.inr ⟨ho,hnil,?_⟩
      cases cs with
      | nil => simp at heq
      | cons c cs =>
        refine ⟨cs,fun hm => hcs (List.mem_cons_of_mem _ hm),?_⟩
        rw [List.cons_append,List.cons.injEq,List.cons.injEq] at heq
        exact heq.imp And.right And.right
  | releasing =>
    exact ⟨h.2.2 List.mem_cons_self,h.1,fun hm => h.2.1 (List.mem_cons_of_mem _ hm)⟩

theorem publish (h : Fits .free opened requests replies) :
    Fits .publishing opened (requests ++ [.publish]) replies :=
  Or.inl ⟨h.1,h.2.2,requests,h.2.1,Or.inr rfl⟩

theorem resend (h : Fits .publishing opened requests replies) (ho : opened = false)
    (hp : .publish ∉ requests) : Fits .publishing opened (requests ++ [.publish]) replies := by
  rcases h with ⟨_,hr,_⟩ | ⟨ho',_⟩
  · exact Or.inl ⟨ho,hr,requests,hp,Or.inr rfl⟩
  · exact absurd (ho.symm.trans ho') (by decide)

theorem release (h : Fits .releasing opened requests replies) :
    Fits .releasing opened (requests ++ [.release]) replies :=
  ⟨by simp [h.1],h.2⟩

end Fits

end Handshake
end MeterLogger

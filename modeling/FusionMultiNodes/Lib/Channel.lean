import FusionMultiNodes.Lib.TimeIndex

/-! Bounded queues between a writer that never waits and a reader: when the queue is full its oldest
item goes. -/
namespace FusionMultiNodes

/-- A queue with what has left it: the reader has got part of that in order, and the rest is lost. -/
@[ext]
structure Channel (n : ℕ) (α : Type) where
  queue : Deque n α
  past : List α
  delivered : List α
  lost : ℕ
  sublist : delivered.Sublist past
  count : past.length = delivered.length+lost

namespace Channel

variable {n : ℕ} {α : Type}

def empty : Channel n α := ⟨Deque.empty,[],[],0,List.Sublist.refl _,rfl⟩

def offered (c : Channel n α) : List α := c.past ++ c.queue.items

def isFull (c : Channel n α) : Bool := decide (n ≤ c.queue.items.length)

/-- Write an item; of a full queue the first item, or the new one if there is no other, is lost. -/
def put (c : Channel n α) (a : α) : Channel n α where
  queue := c.queue.append a
  past := c.past ++ (if c.isFull then (c.queue.items ++ [a]).take 1 else [])
  delivered := c.delivered
  lost := c.lost+(if c.isFull then 1 else 0)
  sublist := c.sublist.trans (List.sublist_append_left _ _)
  count := by
    rw [List.length_append,c.count]
    split_ifs <;> simp [Nat.add_assoc]

def take (c : Channel n α) : Option (α × Channel n α) :=
  match c.queue.items with
  | [] => none
  | a::_ => some (a,{
      queue := c.queue.pop 1
      past := c.past ++ [a]
      delivered := c.delivered ++ [a]
      lost := c.lost
      sublist := c.sublist.append (List.Sublist.refl _)
      count := by
        rw [List.length_append,List.length_append,c.count]
        exact Nat.add_right_comm .. })

theorem lost_put (c : Channel n α) (a : α) :
    (c.put a).lost = c.lost+(if c.isFull then 1 else 0) := rfl

theorem past_put (c : Channel n α) (a : α) :
    (c.put a).past = c.past ++ (if c.isFull then (c.queue.items ++ [a]).take 1 else []) := rfl

theorem items_put (c : Channel n α) (a : α) :
    (c.put a).queue.items =
      if c.isFull then (c.queue.items ++ [a]).drop 1 else c.queue.items ++ [a] := by
  rw [List.drop_one]
  by_cases hfull : n ≤ c.queue.items.length
  · have hyes : c.isFull = true := decide_eq_true hfull
    rw [if_pos hyes]
    exact if_neg (Nat.not_lt.mpr hfull)
  · have hno : ¬c.isFull = true := by simpa [isFull] using hfull
    rw [if_neg hno]
    exact if_pos (Nat.lt_of_not_le hfull)

theorem offered_put (c : Channel n α) (a : α) : (c.put a).offered = c.offered ++ [a] := by
  rw [offered,offered,past_put,items_put]
  split_ifs
  · rw [List.append_assoc,List.take_append_drop,List.append_assoc]
  · rw [List.append_nil,List.append_assoc]

variable {c d : Channel n α} {a : α}

theorem take_eq_some (h : c.take = some (a,d)) :
    d.offered = c.offered ∧ d.delivered = c.delivered ++ [a] ∧ d.lost = c.lost := by
  unfold take at h
  split at h
  · exact nomatch h
  · next b rest hitems =>
    obtain ⟨rfl,rfl⟩ := Prod.mk.inj (Option.some.inj h)
    refine ⟨?_,rfl,rfl⟩
    rw [offered,offered,hitems,List.append_assoc]
    show c.past ++ ([b] ++ c.queue.items.drop 1) = _
    rw [hitems]
    rfl

end Channel
end FusionMultiNodes

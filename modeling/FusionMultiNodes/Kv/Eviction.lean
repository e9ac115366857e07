import FusionMultiNodes.Kv.Manager

/-! What eviction does: it drops entries from the old end until the rest leaves room. -/
namespace FusionMultiNodes

def bytesOf (l : List (String × KVCacheEntry)) : ℤ := (l.map fun p => p.2.totalSizeBytes).sum

@[simp] theorem bytesOf_nil : bytesOf [] = 0 := rfl

@[simp] theorem bytesOf_cons (p : String × KVCacheEntry) (l : List (String × KVCacheEntry)) :
    bytesOf (p::l) = p.2.totalSizeBytes + bytesOf l := by
  simp [bytesOf]

@[simp] theorem bytesOf_append (l l' : List (String × KVCacheEntry)) :
    bytesOf (l ++ l') = bytesOf l + bytesOf l' := by
  simp [bytesOf]

namespace KVSharingManager

/-- The entries `older` went from the front of the cache of `m`, and `rest` stayed. -/
structure Evicted (m t : KVSharingManager) (needed : ℤ)
    (older rest : List (String × KVCacheEntry)) : Prop where
  split : m.localCache.entries = older ++ rest
  cache : t.localCache.entries = rest
  size : t.localSizeBytes = m.localSizeBytes - bytesOf older
  index : ∀ k, t.lookupIndex.get? k =
    if k ∈ older.map (fun p => p.2.key) then none else m.lookupIndex.get? k
  limit : t.maxLocalCacheMb = m.maxLocalCacheMb
  /-- Each entry went because there was no room yet. -/
  full : ∀ before after, older = before ++ after → after ≠ [] →
    m.maxBytes < m.localSizeBytes - bytesOf before + needed
  /-- The loop stops with room, or with an empty cache. -/
  room : rest = [] ∨ t.localSizeBytes + needed ≤ m.maxBytes

variable {m t : KVSharingManager} {needed : ℤ} {older rest : List (String × KVCacheEntry)}

theorem Evicted.nothing (h : m.localCache.entries = [] ∨ m.localSizeBytes + needed ≤ m.maxBytes) :
    Evicted m m needed [] m.localCache.entries where
  split := rfl
  cache := rfl
  size := by simp
  index := by simp
  limit := rfl
  full := by
    intro before after h hne
    exact absurd (List.append_eq_nil_iff.mp h.symm).2 hne
  room := h

theorem Evicted.cons {id : String} {e : KVCacheEntry}
    (hentries : m.localCache.entries = (id,e)::(older ++ rest))
    (hfull : m.maxBytes < m.localSizeBytes + needed)
    (h : Evicted (m.evictEntry id e) t needed older rest) :
    Evicted m t needed ((id,e)::older) rest where
  split := hentries
  cache := h.cache
  size := by
    rw [h.size,bytesOf_cons]
    simp only [evictEntry]
    omega
  index := by
    intro k
    rw [h.index k]
    simp only [evictEntry,Dict.get?_erase,List.map_cons,List.mem_cons]
    by_cases he : k = e.key
    · simp [he]
    · simp only [he,false_or,if_false]
  limit := h.limit
  full := by
    intro before after heq hne
    cases before with
    | nil => simpa using hfull
    | cons p before =>
      rw [List.cons_append] at heq
      obtain ⟨rfl,htail⟩ := List.cons.inj heq
      have hlt := h.full before after htail hne
      simp only [evictEntry,maxBytes] at hlt
      simp only [maxBytes,bytesOf_cons]
      push_cast at hlt ⊢
      linarith
  room := h.room

theorem evictLoop_evicted (needed : ℤ) (n : ℕ) (m : KVSharingManager)
    (hn : m.localCache.entries.length ≤ n) :
    ∃ older rest, Evicted m (evictLoop needed n m) needed older rest := by
  induction n generalizing m with
  | zero => exact ⟨[],_,Evicted.nothing (Or.inl (List.length_eq_zero_iff.mp (by omega)))⟩
  | succ n ih =>
    cases hentries : m.localCache.entries with
    | nil =>
      have hfirst : m.localCache.first? = none := by simp [Dict.first?,hentries]
      rw [evictLoop,hfirst]
      exact ⟨[],_,Evicted.nothing (Or.inl hentries)⟩
    | cons p l =>
      obtain ⟨id,e⟩ := p
      have hfirst : m.localCache.first? = some (id,e) := by simp [Dict.first?,hentries]
      rw [evictLoop,hfirst]
      by_cases hfull : m.maxBytes < m.localSizeBytes + needed
      · have htail : (m.evictEntry id e).localCache.entries = l :=
          Dict.entries_erase_first hentries
        simp only [if_pos hfull]
        obtain ⟨older,rest,h⟩ := ih (m.evictEntry id e) (by
          rw [htail]
          simpa [hentries] using hn)
        refine ⟨(id,e)::older,rest,h.cons ?_ hfull⟩
        rw [hentries,← htail,h.split]
      · simp only [if_neg hfull]
        exact ⟨[],_,Evicted.nothing (Or.inr (not_lt.mp hfull))⟩

theorem makeRoom_evicted (m : KVSharingManager) {needed : ℤ} (h : ¬m.maxBytes < needed) :
    ∃ older rest, Evicted m (m.makeRoom needed) needed older rest := by
  rw [makeRoom]
  split_ifs with hfull
  · rw [evict,if_neg h]
    exact evictLoop_evicted needed _ m le_rfl
  · exact ⟨[],_,Evicted.nothing (Or.inr (not_lt.mp hfull))⟩

end KVSharingManager
end FusionMultiNodes

import FusionMultiNodes.Kv.Eviction

/-! Size accounting of the cache. A store that evicts the very entry it replaces takes its
bytes back twice; the accounting is exact along exactly those runs in which no store does. -/
namespace FusionMultiNodes
namespace KVSharingManager

/-- Entries are kept under their own id, and the running total is the sum of their sizes. -/
structure Counted (m : KVSharingManager) : Prop where
  keyed : ∀ id e, m.localCache.get? id = some e → e.cacheId = id
  sum : m.localSizeBytes = m.localCache.total KVCacheEntry.totalSizeBytes

/-- A store of `e` leaves an entry it replaces in the cache until it replaces it: there is
room once some of the entries older than that one are gone. An entry without bytes does no
harm, and an entry that is too large is not stored. -/
def KeepsReplaced (m : KVSharingManager) (e : KVCacheEntry) : Prop :=
  ∀ prev, m.localCache.get? e.cacheId = some prev →
    prev.totalSizeBytes = 0 ∨ m.maxBytes < e.totalSizeBytes ∨
    ∃ older rest, m.localCache.entries = older ++ rest ∧ (e.cacheId,prev) ∈ rest ∧
      ((m.localSizeBytes - prev.totalSizeBytes - bytesOf older + e.totalSizeBytes : ℤ) : ℚ) ≤
        m.maxBytes

variable {m : KVSharingManager} {e : KVCacheEntry}

theorem counted_create (mb : ℚ) (compress : Bool) : (create mb compress).Counted :=
  ⟨by simp [create],rfl⟩

theorem uncount_cache (m : KVSharingManager) (id : String) :
    (m.uncount id).localCache = m.localCache := by
  unfold uncount
  split <;> rfl

theorem uncount_maxBytes (m : KVSharingManager) (id : String) :
    (m.uncount id).maxBytes = m.maxBytes := by
  unfold uncount
  split <;> rfl

theorem uncount_size {id : String} {prev : KVCacheEntry} (h : m.localCache.get? id = some prev) :
    (m.uncount id).localSizeBytes = m.localSizeBytes - prev.totalSizeBytes := by
  simp only [uncount,h]

theorem uncount_of_none {id : String} (h : m.localCache.get? id = none) : m.uncount id = m := by
  simp only [uncount,h]

theorem total_eq_bytesOf (m : KVSharingManager) :
    m.localCache.total KVCacheEntry.totalSizeBytes = bytesOf m.localCache.entries := rfl

theorem get?_of_mem_rest {t : KVSharingManager} {needed : ℤ} {id : String} {prev : KVCacheEntry}
    {older rest : List (String × KVCacheEntry)} (h : Evicted m t needed older rest)
    (hprev : (id,prev) ∈ rest) : t.localCache.get? id = some prev :=
  Dict.get?_eq_some_iff.mpr (h.cache ▸ hprev)

theorem get?_of_mem_older {t : KVSharingManager} {needed : ℤ} {id : String} {prev : KVCacheEntry}
    {older rest : List (String × KVCacheEntry)} (h : Evicted m t needed older rest)
    (hprev : (id,prev) ∈ older) : t.localCache.get? id = none := by
  rw [Dict.get?_eq_none_iff]
  intro hmem
  have hnodup := m.localCache.nodup
  rw [h.split,List.map_append] at hnodup
  have hrest : id ∈ rest.map Prod.fst := by
    simpa [Dict.keys,h.cache] using hmem
  exact (List.disjoint_of_nodup_append hnodup) (List.mem_map_of_mem hprev) hrest

theorem Evicted.keyed {t : KVSharingManager} {needed : ℤ}
    {older rest : List (String × KVCacheEntry)} (h : Evicted m t needed older rest) {id : String}
    {x : KVCacheEntry} (hx : t.localCache.get? id = some x) : m.localCache.get? id = some x := by
  rw [Dict.get?_eq_some_iff] at hx ⊢
  rw [h.split]
  exact List.mem_append_right older (h.cache ▸ hx)

/-- The replaced entry survives the eviction exactly under the condition. -/
theorem mem_rest_iff {t : KVSharingManager} {needed : ℤ} {id : String} {prev : KVCacheEntry}
    {older rest : List (String × KVCacheEntry)} (h : Evicted m t needed older rest)
    (hprev : m.localCache.get? id = some prev) :
    (id,prev) ∈ rest ↔ ∃ older rest, m.localCache.entries = older ++ rest ∧ (id,prev) ∈ rest ∧
      ((m.localSizeBytes - bytesOf older + needed : ℤ) : ℚ) ≤ m.maxBytes := by
  constructor
  · intro hmem
    refine ⟨older,rest,h.split,hmem,?_⟩
    rcases h.room with hnil | hroom
    · rw [hnil] at hmem
      simp at hmem
    · rw [h.size] at hroom
      push_cast at hroom ⊢
      linarith
  · rintro ⟨older',rest',hsplit,hmem,hroom⟩
    by_contra hrest
    have hold : (id,prev) ∈ older := by
      have hin := Dict.get?_eq_some_iff.mp hprev
      rw [h.split] at hin
      exact (List.mem_append.mp hin).resolve_right hrest
    -- the entry lies behind `older'` and inside `older`, so the loop went past `older'`
    have hnot : (id,prev) ∉ older' := by
      intro hin
      have hnodup := m.localCache.nodup_entries
      rw [hsplit] at hnodup
      exact (List.disjoint_of_nodup_append hnodup) hin hmem
    have hbelow : older' <+: older := by
      have hboth : older' ++ rest' = older ++ rest := hsplit ▸ h.split
      rcases List.prefix_or_prefix_of_prefix ⟨rest',hboth⟩ ⟨rest,rfl⟩ with hp | hp
      · exact hp
      · exact absurd (hp.subset hold) hnot
    obtain ⟨after,hafter⟩ := hbelow
    have hne : after ≠ [] := by
      rintro rfl
      rw [List.append_nil] at hafter
      exact hnot (hafter ▸ hold)
    have hfull := h.full older' after hafter.symm hne
    push_cast at hroom
    linarith

def Keyed (m : KVSharingManager) : Prop :=
  ∀ id e, m.localCache.get? id = some e → e.cacheId = id

theorem storeLocal_keyed (hm : m.Keyed) (e : KVCacheEntry) : (m.storeLocal e).1.Keyed := by
  intro id x hx
  unfold storeLocal at hx
  by_cases hlarge : m.maxBytes < e.totalSizeBytes
  · rw [if_pos hlarge] at hx
    exact hm id x hx
  · rw [if_neg hlarge] at hx
    have hlarge' : ¬(m.uncount e.cacheId).maxBytes < e.totalSizeBytes := by
      rwa [uncount_maxBytes]
    obtain ⟨older,rest,hev⟩ := makeRoom_evicted (m.uncount e.cacheId) hlarge'
    simp only [insert,Dict.get?_set] at hx
    split_ifs at hx with hid
    · exact Option.some.inj hx ▸ hid.symm
    · have hx' := hev.keyed hx
      rw [uncount_cache] at hx'
      exact hm id x hx'

/-- A store keeps the accounting exactly when it keeps the entry it replaces. -/
theorem storeLocal_counted_iff (hm : m.Counted) (e : KVCacheEntry) :
    (m.storeLocal e).1.Counted ↔ m.KeepsReplaced e := by
  have hkeyed := storeLocal_keyed hm.keyed e
  unfold storeLocal at hkeyed ⊢
  by_cases hlarge : m.maxBytes < e.totalSizeBytes
  · rw [if_pos hlarge]
    exact ⟨fun _ prev _ => Or.inr (Or.inl hlarge),fun _ => hm⟩
  · rw [if_neg hlarge] at hkeyed ⊢
    have hlarge' : ¬(m.uncount e.cacheId).maxBytes < e.totalSizeBytes := by
      rwa [uncount_maxBytes]
    obtain ⟨older,rest,hev⟩ := makeRoom_evicted (m.uncount e.cacheId) hlarge'
    have hsplit := hev.split
    rw [uncount_cache] at hsplit
    have hrest : ((m.uncount e.cacheId).makeRoom e.totalSizeBytes).localCache.total
        KVCacheEntry.totalSizeBytes = bytesOf rest := by
      rw [total_eq_bytesOf,hev.cache]
    have hall : m.localSizeBytes = bytesOf older + bytesOf rest := by
      rw [hm.sum,total_eq_bytesOf,hsplit,bytesOf_append]
    cases hprev : m.localCache.get? e.cacheId with
    | none =>
      have hgone : ((m.uncount e.cacheId).makeRoom e.totalSizeBytes).localCache.get? e.cacheId =
          none := by
        cases hx : ((m.uncount e.cacheId).makeRoom e.totalSizeBytes).localCache.get? e.cacheId with
        | none => rfl
        | some x =>
          have hx' := hev.keyed hx
          rw [uncount_cache,hprev] at hx'
          exact absurd hx' (by simp)
      have hsize : (m.uncount e.cacheId).localSizeBytes = m.localSizeBytes := by
        rw [uncount_of_none hprev]
      refine ⟨fun _ prev h => absurd (hprev.symm.trans h) (by simp),fun _ => ⟨hkeyed,?_⟩⟩
      simp only [insert,Dict.total_set,Dict.erase_of_get?_none hgone,hrest,hev.size,hsize]
      omega
    | some prev =>
      have hmem := mem_rest_iff hev (by rwa [uncount_cache])
      simp only [uncount_cache,uncount_size hprev,uncount_maxBytes] at hmem
      by_cases hin : (e.cacheId,prev) ∈ rest
      · refine ⟨fun _ prev' h => ?_,fun _ => ⟨hkeyed,?_⟩⟩
        · obtain rfl : prev = prev' := Option.some.inj (hprev.symm.trans h)
          exact Or.inr (Or.inr (hmem.mp hin))
        · simp only [insert,Dict.total_set,Dict.total_erase (get?_of_mem_rest hev hin),hrest,
            hev.size,uncount_size hprev]
          omega
      · have hold : (e.cacheId,prev) ∈ older := by
          have hall := Dict.get?_eq_some_iff.mp hprev
          rw [hsplit] at hall
          exact (List.mem_append.mp hall).resolve_right hin
        have hgone := get?_of_mem_older hev hold
        have hdiff : (((m.uncount e.cacheId).makeRoom e.totalSizeBytes).insert e).localSizeBytes +
            prev.totalSizeBytes = (((m.uncount e.cacheId).makeRoom e.totalSizeBytes).insert
              e).localCache.total KVCacheEntry.totalSizeBytes := by
          simp only [insert,Dict.total_set,Dict.erase_of_get?_none hgone,hrest,hev.size,
            uncount_size hprev]
          omega
        constructor
        · intro hc prev' h
          obtain rfl : prev = prev' := Option.some.inj (hprev.symm.trans h)
          have hsum := hc.sum
          dsimp only at hsum
          exact Or.inl (by omega)
        · intro hk
          rcases hk prev hprev with hzero | hbig | hroom
          · exact ⟨hkeyed,by dsimp only; omega⟩
          · exact absurd hbig hlarge
          · exact absurd (hmem.mpr hroom) hin

/-- A store that succeeds leaves at most the configured maximum. -/
theorem storeLocal_le_max (hm : (m.storeLocal e).1.Counted) (hs : (m.storeLocal e).2 = true) :
    ((m.storeLocal e).1.localSizeBytes : ℚ) ≤ m.maxBytes := by
  unfold storeLocal at hm hs ⊢
  by_cases hlarge : m.maxBytes < e.totalSizeBytes
  · simp [if_pos hlarge] at hs
  · rw [if_neg hlarge] at hm ⊢
    have hlarge' : ¬(m.uncount e.cacheId).maxBytes < e.totalSizeBytes := by
      rwa [uncount_maxBytes]
    obtain ⟨older,rest,hev⟩ := makeRoom_evicted (m.uncount e.cacheId) hlarge'
    rcases hev.room with hnil | hroom
    · have hempty : ((m.uncount e.cacheId).makeRoom e.totalSizeBytes).localCache.entries = [] := by
        rw [hev.cache,hnil]
      have hone : (((m.uncount e.cacheId).makeRoom e.totalSizeBytes).insert e).localCache.total
          KVCacheEntry.totalSizeBytes = e.totalSizeBytes := by
        have hnone : ((m.uncount e.cacheId).makeRoom e.totalSizeBytes).localCache.get? e.cacheId =
            none := by
          simp [Dict.get?,hempty]
        simp only [insert,Dict.total_set,Dict.erase_of_get?_none hnone,total_eq_bytesOf,hempty,
          bytesOf_nil,zero_add]
      rw [hm.sum,hone]
      exact not_lt.mp hlarge
    · rw [uncount_maxBytes] at hroom
      simp only [insert]
      push_cast
      exact hroom

theorem counted_of_eq {m' : KVSharingManager} (hm : m.Counted)
    (hcache : m'.localCache = m.localCache) (hsize : m'.localSizeBytes = m.localSizeBytes) :
    m'.Counted :=
  ⟨fun id e h => hm.keyed id e (hcache ▸ h),by rw [hcache,hsize,hm.sum]⟩

theorem expire_keyed (hm : m.Keyed) (e : KVCacheEntry) (key : String × String) :
    (m.expire e key).Keyed := by
  intro id x hx
  simp only [expire,Dict.get?_erase] at hx
  split_ifs at hx
  exact hm id x hx

theorem expire_counted (hm : m.Counted) {id : String} (h : m.localCache.get? id = some e)
    (key : String × String) : (m.expire e key).Counted := by
  refine ⟨expire_keyed hm.keyed e key,?_⟩
  have hid : e.cacheId = id := hm.keyed id e h
  subst hid
  simp only [expire,Dict.total_erase h,hm.sum]

theorem Keyed.of_set {m' : KVSharingManager} {id : String} (hm : m.Keyed) (he : e.cacheId = id)
    (h : ∀ k, m'.localCache.get? k = (m.localCache.set id e).get? k) : m'.Keyed := by
  intro k x hx
  rw [h,Dict.get?_set] at hx
  split_ifs at hx with hk
  · rw [← Option.some.inj hx,hk,he]
  · exact hm k x hx

theorem lookupLocal_keyed (hm : m.Keyed) (model promptHash : String) (now : Decimal) :
    (m.lookupLocal model promptHash now).1.Keyed := by
  unfold lookupLocal
  split
  · exact hm
  · split_ifs
    · exact hm
    · split
      · exact hm
      · rename_i id _ _ _ e he
        split_ifs
        · exact expire_keyed hm e (model,promptHash)
        · exact hm.of_set (e := touch e now) (hm id e he) fun k => Dict.get?_moveToEnd ..

theorem lookupLocal_counted (hm : m.Counted) (model promptHash : String) (now : Decimal) :
    (m.lookupLocal model promptHash now).1.Counted := by
  unfold lookupLocal
  split
  · exact hm
  · split_ifs
    · exact hm
    · split
      · exact counted_of_eq hm rfl rfl
      · rename_i id _ _ _ e he
        split_ifs
        · exact counted_of_eq (expire_counted hm he (model,promptHash)) rfl rfl
        · refine ⟨Keyed.of_set hm.keyed (e := touch e now) (hm.keyed id e he) fun k => Dict.get?_moveToEnd ..,?_⟩
          simp only [Dict.total_moveToEnd,Dict.total_set,Dict.total_erase he,hm.sum,touch]
          omega

theorem lookupLocalById_keyed (hm : m.Keyed) (id : String) (now : Decimal) :
    (m.lookupLocalById id now).1.Keyed := by
  unfold lookupLocalById
  split
  · exact hm
  · split_ifs
    · exact expire_keyed hm _ _
    · exact hm

theorem lookupLocalById_counted (hm : m.Counted) (id : String) (now : Decimal) :
    (m.lookupLocalById id now).1.Counted := by
  unfold lookupLocalById
  split
  · exact hm
  · rename_i e he
    split_ifs
    · exact expire_counted hm he e.key
    · exact hm

theorem lookupLocalById_some {id : String} {now : Decimal} {m' : KVSharingManager}
    (h : m.lookupLocalById id now = (m',some e)) : m' = m ∧ m.localCache.get? id = some e := by
  unfold lookupLocalById at h
  split at h
  · simp at h
  · rename_i x hx
    split_ifs at h
    · simp at h
    · obtain ⟨rfl,hxe⟩ := Prod.mk.inj h
      exact ⟨rfl,Option.some.inj hxe ▸ hx⟩

theorem exportEntry_keyed (hm : m.Keyed) (transport : KVTransport) (id : String) (now : Decimal) :
    (m.exportEntry transport id now).1.Keyed := by
  unfold exportEntry
  have hlookup := lookupLocalById_keyed hm id now
  split
  · rename_i m' h
    rw [h] at hlookup
    exact hlookup
  · rename_i m' e h
    obtain ⟨rfl,he⟩ := lookupLocalById_some h
    exact hm.of_set (e := m'.fillEntry transport id e) (hm id e he) fun k => by
      rw [syncLocalSizeDelta_cache]

theorem exportEntry_counted (hm : m.Counted) (transport : KVTransport) (id : String)
    (now : Decimal) : (m.exportEntry transport id now).1.Counted := by
  unfold exportEntry
  have hlookup := lookupLocalById_counted hm id now
  split
  · rename_i m' h
    rw [h] at hlookup
    exact hlookup
  · rename_i m' e h
    obtain ⟨rfl,he⟩ := lookupLocalById_some h
    have hfilled : (m'.fillEntry transport id e).cacheId = id := hm.keyed id e he
    have hcontains : (m'.localCache.set id (m'.fillEntry transport id e)).contains
        (m'.fillEntry transport id e).cacheId = true := by
      rw [hfilled]
      simp [Dict.contains]
    have htotal := Dict.total_set KVCacheEntry.totalSizeBytes m'.localCache id
      (m'.fillEntry transport id e)
    rw [Dict.total_erase he,← hm.sum] at htotal
    simp only [syncLocalSizeDelta,hcontains,and_true]
    split_ifs with hdelta
    · exact ⟨Keyed.of_set hm.keyed hfilled fun _ => rfl,by dsimp only; omega⟩
    · exact ⟨Keyed.of_set hm.keyed hfilled fun _ => rfl,by dsimp only; omega⟩

theorem keepsReplaced_of_absent (h : m.localCache.contains e.cacheId ≠ true) :
    m.KeepsReplaced e := by
  intro prev hprev
  simp [Dict.contains,hprev] at h

theorem load_keyed (items : List SavedItem) (now : Decimal) (hm : m.Keyed) :
    (load items now m).Keyed := by
  induction items generalizing m with
  | nil => exact hm
  | cons item rest ih =>
    cases item with
    | broken id =>
      rw [load]
      split_ifs
      · exact ih hm
      · exact hm
    | entry x =>
      rw [load]
      split_ifs
      · exact ih hm
      · exact ih (storeLocal_keyed hm x)

/-- A snapshot is loaded past the ids that are known, so that nothing is replaced. -/
theorem load_counted (items : List SavedItem) (now : Decimal) (hm : m.Counted) :
    (load items now m).Counted ∧ ∀ p ∈ loadCalls items now m, p.1.Counted ∧ p.1.KeepsReplaced p.2 := by
  induction items generalizing m with
  | nil => exact ⟨counted_of_eq hm rfl rfl,by simp [loadCalls]⟩
  | cons item rest ih =>
    cases item with
    | broken id =>
      rw [load,loadCalls]
      split_ifs
      · exact ih hm
      · exact ⟨hm,by simp⟩
    | entry x =>
      rw [load,loadCalls]
      split_ifs with hskip
      · exact ih hm
      · have hkeeps : m.KeepsReplaced x := keepsReplaced_of_absent fun h => hskip (Or.inl h)
        have hstored := (storeLocal_counted_iff hm x).mpr hkeeps
        refine ⟨(ih hstored).1,?_⟩
        intro p hp
        rcases List.mem_cons.mp hp with rfl | hp
        · exact ⟨hm,hkeeps⟩
        · exact (ih hstored).2 p hp

/-- After the step the running total is the sum of the sizes, and each of its stores that
succeeded left at most the configured maximum. -/
def Accounts (m : KVSharingManager) (ev : KvEvent) (t : KVSharingManager) : Prop :=
  t.localSizeBytes = t.localCache.total KVCacheEntry.totalSizeBytes ∧
    ∀ p ∈ m.storeCalls ev, (p.1.storeLocal p.2).2 = true →
      ((p.1.storeLocal p.2).1.localSizeBytes : ℚ) ≤ p.1.maxBytes

def Replaces (m : KVSharingManager) (ev : KvEvent) (_ : KVSharingManager) : Prop :=
  ∀ p ∈ m.storeCalls ev, p.1.KeepsReplaced p.2

/-- A decoded entry is handed to `store_local`, and nothing else is done. -/
theorem importStream_eq (header : Bytes) (chunks : List Bytes) (now : Decimal) :
    m.importStream header chunks now = m.importBundle (decodeStream header chunks now) := rfl

theorem importBundle_counted_iff (hm : m.Counted) (bundle : Option KVCacheEntry) :
    (m.importBundle bundle).1.Counted ↔
      ∀ p ∈ bundle.toList.map (fun e => (m,e)), p.1.KeepsReplaced p.2 := by
  cases bundle with
  | none => simpa [importBundle] using hm
  | some e => simpa [importBundle] using storeLocal_counted_iff hm e

theorem importBundle_keyed (hm : m.Keyed) (bundle : Option KVCacheEntry) :
    (m.importBundle bundle).1.Keyed := by
  cases bundle with
  | none => exact hm
  | some e => exact storeLocal_keyed hm e

theorem step_counted_iff (hm : m.Counted) (transport : KVTransport) (ev : KvEvent) :
    (m.step transport ev).Counted ↔ ∀ p ∈ m.storeCalls ev, p.1.KeepsReplaced p.2 := by
  cases ev with
  | store e => simpa [step,storeCalls] using storeLocal_counted_iff hm e
  | lookup model promptHash now => simpa [step,storeCalls] using lookupLocal_counted hm _ _ now
  | lookupById id now => simpa [step,storeCalls] using lookupLocalById_counted hm id now
  | exportEntry id now => simpa [step,storeCalls] using exportEntry_counted hm transport id now
  | importBundle bundle => exact importBundle_counted_iff hm bundle
  | importStream header chunks now =>
    rw [step,importStream_eq]
    exact importBundle_counted_iff hm (decodeStream header chunks now)
  | warm nodeId req now => simpa [step,storeCalls,kvWarm] using storeLocal_counted_iff hm _
  | load items now =>
    have h := load_counted items now hm
    exact ⟨fun _ p hp => (h.2 p hp).2,fun _ => h.1⟩
  | save =>
    have hsave : (m.step transport .save).Counted := counted_of_eq hm rfl rfl
    simpa [storeCalls] using hsave

theorem step_keyed (hm : m.Keyed) (transport : KVTransport) (ev : KvEvent) :
    (m.step transport ev).Keyed := by
  cases ev with
  | store e => exact storeLocal_keyed hm e
  | lookup model promptHash now => exact lookupLocal_keyed hm model promptHash now
  | lookupById id now => exact lookupLocalById_keyed hm id now
  | exportEntry id now => exact exportEntry_keyed hm transport id now
  | importBundle bundle => exact importBundle_keyed hm bundle
  | importStream header chunks now =>
    rw [step,importStream_eq]
    exact importBundle_keyed hm (decodeStream header chunks now)
  | warm nodeId req now => exact storeLocal_keyed hm _
  | load items now => exact load_keyed items now hm
  | save => exact hm

/-- Every call of `store_local` in a step meets a state whose accounting is exact. -/
theorem storeCalls_counted (hm : m.Counted) (ev : KvEvent) {p : KVSharingManager × KVCacheEntry}
    (hp : p ∈ m.storeCalls ev) : p.1.Counted := by
  cases ev with
  | load items now => exact ((load_counted items now hm).2 p hp).1
  | store e | warm nodeId req now =>
    obtain rfl := List.mem_singleton.mp hp
    exact hm
  | importBundle bundle =>
    obtain ⟨e,-,rfl⟩ := List.mem_map.mp hp
    exact hm
  | importStream header chunks now =>
    obtain ⟨e,-,rfl⟩ := List.mem_map.mp hp
    exact hm
  | lookup _ _ _ | lookupById _ _ | exportEntry _ _ | save => simp [storeCalls] at hp

theorem accounts_iff (hm : m.Counted) (transport : KVTransport) (ev : KvEvent) :
    m.Accounts ev (m.step transport ev) ↔ m.Replaces ev (m.step transport ev) := by
  constructor
  · intro h
    exact (step_counted_iff hm transport ev).mp ⟨step_keyed hm.keyed transport ev,h.1⟩
  · intro h
    refine ⟨((step_counted_iff hm transport ev).mpr h).sum,?_⟩
    intro p hp hs
    have hcounted := (storeLocal_counted_iff (storeCalls_counted hm ev hp) p.2).mpr (h p hp)
    exact storeLocal_le_max hcounted hs

/-- The accounting is exact along a run if and only if none of its stores evicts the entry
it replaces. -/
theorem size_accounting_iff (transport : KVTransport) (mb : ℚ) (compress : Bool)
    (es : List KvEvent) :
    (machine transport).Along Accounts (create mb compress) es ↔
      (machine transport).Along Replaces (create mb compress) es := by
  apply Machine.along_congr_of_invariant (I := Counted)
  · intro m ev t hm ht
    obtain rfl := Option.some.inj ht
    exact accounts_iff hm transport ev
  · intro m ev t hm ht h
    obtain rfl := Option.some.inj ht
    exact (step_counted_iff hm transport ev).mpr h
  · exact counted_create mb compress

/-- An entry of `size` bytes, for runs on fixed inputs. -/
def sizedEntry (id : String) (size : ℤ) : KVCacheEntry :=
  { cacheId := id, modelName := "m", promptHash := id, promptPrefix := "", totalSizeBytes := size }

/-- A cache of ten bytes holds 6 and 4; storing the first anew with 8 evicts it, and 12 bytes
are kept as 6. -/
theorem size_accounting_drifts :
    ¬∀ (transport : KVTransport) (mb : ℚ) (compress : Bool) (es : List KvEvent),
      (machine transport).Along Accounts (create mb compress) es := by
  intro h
  have hrun := h (fun _ _ _ => none) (10 / 1048576) true
    ([.store (sizedEntry "a" 6),.store (sizedEntry "b" 4)] ++ [.store (sizedEntry "a" 8)])
  have hlast := (hrun.last rfl rfl).1
  revert hlast
  decide +kernel

end KVSharingManager
end FusionMultiNodes

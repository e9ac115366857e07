import FusionMultiNodes.Kv.Size

/-! The lookup index. It names one entry for each key and goes with whichever entry of the
key is dropped, so that lookups are right as long as a dropped entry leaves no other entry
of its key behind and an id does not change its key. -/
namespace FusionMultiNodes

def KVCacheEntry.deadline (e : KVCacheEntry) : ℚ := e.createdAt.value + e.ttlSeconds.value

theorem KVCacheEntry.isExpired_iff {e : KVCacheEntry} {now : Decimal} :
    e.isExpired now = true ↔ e.deadline < now.value := by
  simp only [isExpired,deadline,decide_eq_true_eq]
  constructor <;> intro h <;> linarith

namespace KVSharingManager

/-- Each index key names a cached entry of that key, and each cached entry is stood for by
one that is served at least as long. -/
structure Indexed (m : KVSharingManager) : Prop where
  keyed : ∀ id e, m.localCache.get? id = some e → e.cacheId = id
  named : ∀ id e, m.localCache.get? id = some e → id ≠ ""
  sound : ∀ k id, m.lookupIndex.get? k = some id → ∃ e, m.localCache.get? id = some e ∧ e.key = k
  complete : ∀ id e, m.localCache.get? id = some e →
    ∃ id' e', m.lookupIndex.get? e.key = some id' ∧ m.localCache.get? id' = some e' ∧
      e.deadline ≤ e'.deadline

/-- What a lookup has to answer: an entry of its key that has not expired, or nothing where
the cache holds none. -/
def Answers (m : KVSharingManager) (model promptHash : String) (now : Decimal) :
    Option KVCacheEntry → Prop
  | some e => e.modelName = model ∧ e.promptHash = promptHash ∧ e.isExpired now = false
  | none => ∀ id e, m.localCache.get? id = some e → e.modelName = model →
      e.promptHash = promptHash → e.isExpired now = true

/-- No other entry is cached under the key of `e`. -/
def Alone (m : KVSharingManager) (id : String) (e : KVCacheEntry) : Prop :=
  ∀ id' e', m.localCache.get? id' = some e' → e'.key = e.key → id' = id

/-- A store of `e` drops `older`, the shortest front of the cache that leaves room for it. -/
structure Drops (m : KVSharingManager) (e : KVCacheEntry)
    (older rest : List (String × KVCacheEntry)) : Prop where
  split : m.localCache.entries = older ++ rest
  full : ∀ before after, older = before ++ after → after ≠ [] →
    m.maxBytes < (m.uncount e.cacheId).localSizeBytes - bytesOf before + e.totalSizeBytes
  room : rest = [] ∨ ((m.uncount e.cacheId).localSizeBytes - bytesOf older + e.totalSizeBytes : ℚ) ≤
    m.maxBytes

/-- A store of `e` keeps the index right: its id is not empty; where the id is cached under
another key, that key is not indexed by it; no entry of the same key outlives it; and no
entry that stays shares its key with one that is dropped. -/
def KeepsIndex (m : KVSharingManager) (e : KVCacheEntry) : Prop :=
  m.maxBytes < e.totalSizeBytes ∨ (e.cacheId ≠ "" ∧ ∀ older rest, m.Drops e older rest →
    (∀ p ∈ rest, p.1 = e.cacheId → p.2.key ≠ e.key →
      m.lookupIndex.get? p.2.key ≠ some e.cacheId) ∧
    (∀ p ∈ rest, p.1 ≠ e.cacheId → p.2.key = e.key → p.2.deadline ≤ e.deadline) ∧
    ∀ p ∈ rest, p.1 ≠ e.cacheId → p.2.key ≠ e.key → ∀ q ∈ older, q.2.key ≠ p.2.key)

variable {m : KVSharingManager} {e : KVCacheEntry}

theorem indexed_create (mb : ℚ) (compress : Bool) : (create mb compress).Indexed :=
  ⟨by simp [create],by simp [create],by simp [create],by simp [create]⟩

theorem uncount_index (m : KVSharingManager) (id : String) :
    (m.uncount id).lookupIndex = m.lookupIndex := by
  unfold uncount
  split <;> rfl

theorem Evicted.drops {t : KVSharingManager} {older rest : List (String × KVCacheEntry)}
    (h : Evicted (m.uncount e.cacheId) t e.totalSizeBytes older rest) : m.Drops e older rest where
  split := uncount_cache m e.cacheId ▸ h.split
  full := by
    intro before after heq hne
    have hfull := h.full before after heq hne
    rwa [uncount_maxBytes] at hfull
  room := by
    have hroom := h.room
    rw [uncount_maxBytes,h.size] at hroom
    push_cast at hroom
    exact hroom

theorem storeLocal_indexed (hm : m.Indexed) (hk : m.KeepsIndex e) :
    (m.storeLocal e).1.Indexed := by
  unfold storeLocal
  by_cases hlarge : m.maxBytes < e.totalSizeBytes
  · rw [if_pos hlarge]
    exact hm
  · rw [if_neg hlarge]
    have hlarge' : ¬(m.uncount e.cacheId).maxBytes < e.totalSizeBytes := by
      rwa [uncount_maxBytes]
    obtain ⟨older,rest,hev⟩ := makeRoom_evicted (m.uncount e.cacheId) hlarge'
    obtain ⟨hne,hkeep⟩ := hk.resolve_left hlarge
    obtain ⟨hid,hlive,hshare⟩ := hkeep older rest hev.drops
    have hsplit := hev.drops.split
    -- what is cached and indexed afterwards
    have hstay : ∀ id x, ((m.uncount e.cacheId).makeRoom e.totalSizeBytes).localCache.get? id =
        some x → (id,x) ∈ rest ∧ m.localCache.get? id = some x := by
      intro id x hx
      have hold := hev.keyed hx
      rw [uncount_cache] at hold
      exact ⟨hev.cache ▸ Dict.get?_eq_some_iff.mp hx,hold⟩
    have hback : ∀ id x, m.localCache.get? id = some x → (∀ q ∈ older, q.2.key ≠ x.key) →
        ((m.uncount e.cacheId).makeRoom e.totalSizeBytes).localCache.get? id = some x := by
      intro id x hx hnot
      have hin := Dict.get?_eq_some_iff.mp hx
      rw [hsplit] at hin
      rcases List.mem_append.mp hin with hin | hin
      · exact absurd rfl (hnot _ hin)
      · exact Dict.get?_eq_some_iff.mpr (hev.cache ▸ hin)
    constructor
    · intro id x hx
      simp only [insert,Dict.get?_set] at hx
      split_ifs at hx with h
      · exact Option.some.inj hx ▸ h.symm
      · exact hm.keyed id x (hstay id x hx).2
    · intro id x hx
      simp only [insert,Dict.get?_set] at hx
      split_ifs at hx with h
      · exact h ▸ hne
      · exact hm.named id x (hstay id x hx).2
    · intro k id hk
      simp only [insert,Dict.get?_set,hev.index,uncount_index] at hk
      split_ifs at hk with h₁ h₂
      · obtain rfl := Option.some.inj hk
        exact ⟨e,by simp [insert],h₁.symm⟩
      · have hkey : ∀ q ∈ older, q.2.key ≠ k := by
          rintro q hq rfl
          exact h₂ (List.mem_map_of_mem (f := fun p => p.2.key) hq)
        obtain ⟨x,hx,rfl⟩ := hm.sound k id hk
        have hx' := hback id x hx hkey
        have hide : id ≠ e.cacheId := by
          rintro rfl
          exact hid _ (hstay _ x hx').1 rfl h₁ hk
        exact ⟨x,by simpa [insert,Dict.get?_set,hide] using hx',rfl⟩
    · intro id x hx
      simp only [insert,Dict.get?_set] at hx
      split_ifs at hx with h
      · obtain rfl := Option.some.inj hx
        exact ⟨e.cacheId,e,by simp [insert],by simp [insert],le_rfl⟩
      · obtain ⟨hrest,hold⟩ := hstay id x hx
        by_cases hkey : x.key = e.key
        · exact ⟨e.cacheId,e,by simp [insert,hkey],by simp [insert],hlive _ hrest h hkey⟩
        · have hnot := hshare _ hrest h hkey
          obtain ⟨id',y,hindex,hy,hdead⟩ := hm.complete id x hold
          obtain ⟨y',hy',hykey⟩ := hm.sound _ _ hindex
          obtain rfl : y' = y := Option.some.inj (hy'.symm.trans hy)
          have hstays := hback id' y' hy fun q hq => hykey ▸ hnot q hq
          have hide : id' ≠ e.cacheId := by
            rintro rfl
            exact hid _ (hstay _ y' hstays).1 rfl (hykey ▸ hkey) (hykey ▸ hindex)
          have hnone : x.key ∉ older.map fun p => p.2.key := by
            intro hmem
            obtain ⟨q,hq,hqk⟩ := List.mem_map.mp hmem
            exact hnot q hq hqk
          refine ⟨id',y',?_,?_,hdead⟩
          · simp only [insert,Dict.get?_set,hev.index,uncount_index,if_neg hkey,if_neg hnone,hindex]
          · simpa [insert,Dict.get?_set,hide] using hstays

/-- An entry that is alone under its key can go together with the index key. -/
theorem expire_indexed (hm : m.Indexed) {id : String} (h : m.localCache.get? id = some e)
    (ha : m.Alone id e) : (m.expire e e.key).Indexed := by
  have hid : e.cacheId = id := hm.keyed id e h
  subst hid
  constructor
  · intro id x hx
    simp only [expire,Dict.get?_erase] at hx
    split_ifs at hx
    exact hm.keyed id x hx
  · intro id x hx
    simp only [expire,Dict.get?_erase] at hx
    split_ifs at hx
    exact hm.named id x hx
  · intro k id hk
    simp only [expire,Dict.get?_erase] at hk
    split_ifs at hk with hkey
    obtain ⟨x,hx,rfl⟩ := hm.sound k id hk
    have hide : id ≠ e.cacheId := by
      rintro rfl
      exact hkey (congrArg KVCacheEntry.key (Option.some.inj (hx.symm.trans h)))
    exact ⟨x,by simpa [expire,Dict.get?_erase,hide] using hx,rfl⟩
  · intro id x hx
    simp only [expire,Dict.get?_erase] at hx
    split_ifs at hx with hide
    have hkey : x.key ≠ e.key := fun hk => hide (ha id x hx hk)
    obtain ⟨id',y,hindex,hy,hdead⟩ := hm.complete id x hx
    have hide' : id' ≠ e.cacheId := by
      rintro rfl
      obtain ⟨y',hy',hyk⟩ := hm.sound _ _ hindex
      obtain rfl : y' = e := Option.some.inj (hy'.symm.trans h)
      exact hkey hyk.symm
    exact ⟨id',y,by simpa [expire,Dict.get?_erase,hkey] using hindex,
      by simpa [expire,Dict.get?_erase,hide'] using hy,hdead⟩

theorem indexed_of_inPlace {m' : KVSharingManager} {id : String} (e' : KVCacheEntry)
    (hm : m.Indexed) (h : m.localCache.get? id = some e)
    (hcache : ∀ k, m'.localCache.get? k = if k = id then some e' else m.localCache.get? k)
    (hindex : m'.lookupIndex = m.lookupIndex) (hid : e'.cacheId = e.cacheId)
    (hkey : e'.key = e.key) (hdead : e'.deadline = e.deadline) : m'.Indexed := by
  -- every entry has its counterpart before the change
  have hold : ∀ k x, m'.localCache.get? k = some x → ∃ x', m.localCache.get? k = some x' ∧
      x.cacheId = x'.cacheId ∧ x.key = x'.key ∧ x.deadline = x'.deadline := by
    intro k x hx
    rw [hcache] at hx
    split_ifs at hx with hk
    · obtain rfl := Option.some.inj hx
      exact ⟨e,hk ▸ h,hid,hkey,hdead⟩
    · exact ⟨x,hx,rfl,rfl,rfl⟩
  have hnew : ∀ k x', m.localCache.get? k = some x' → ∃ x, m'.localCache.get? k = some x ∧
      x.key = x'.key ∧ x.deadline = x'.deadline := by
    intro k x' hx
    by_cases hk : k = id
    · subst hk
      obtain rfl : x' = e := Option.some.inj (hx.symm.trans h)
      exact ⟨e',by rw [hcache,if_pos rfl],hkey,hdead⟩
    · exact ⟨x',by rw [hcache,if_neg hk,hx],rfl,rfl⟩
  constructor
  · intro k x hx
    obtain ⟨x',hx',hc,-,-⟩ := hold k x hx
    rw [hc]
    exact hm.keyed k x' hx'
  · intro k x hx
    obtain ⟨x',hx',-⟩ := hold k x hx
    exact hm.named k x' hx'
  · intro k i hi
    rw [hindex] at hi
    obtain ⟨x',hx',hk⟩ := hm.sound k i hi
    obtain ⟨x,hx,hxk,-⟩ := hnew i x' hx'
    exact ⟨x,hx,hxk.trans hk⟩
  · intro k x hx
    obtain ⟨x',hx',-,hk,hd⟩ := hold k x hx
    obtain ⟨i,y',hi,hy',hle⟩ := hm.complete k x' hx'
    obtain ⟨y,hy,-,hyd⟩ := hnew i y' hy'
    exact ⟨i,y,by rw [hindex,hk,hi],hy,by rw [hd,hyd]; exact hle⟩

theorem lookupLocal_indexed (hm : m.Indexed) {model promptHash : String} {now : Decimal}
    (ha : ∀ id e, m.lookupIndex.get? (model,promptHash) = some id →
      m.localCache.get? id = some e → e.isExpired now = true → m.Alone id e) :
    (m.lookupLocal model promptHash now).1.Indexed := by
  unfold lookupLocal
  split
  · exact hm
  · rename_i id hindex
    obtain ⟨e,he,hkey⟩ := hm.sound _ _ hindex
    rw [if_neg (hm.named id e he)]
    simp only [he]
    split_ifs with hexp
    · have hgone := expire_indexed hm he (ha id e hindex he hexp)
      rw [hkey] at hgone
      exact ⟨hgone.keyed,hgone.named,hgone.sound,hgone.complete⟩
    · apply indexed_of_inPlace (touch e now) hm he
      · intro k
        simp only [Dict.get?_moveToEnd,Dict.get?_set]
      · rfl
      · rfl
      · rfl
      · rfl

theorem lookupLocalById_indexed (hm : m.Indexed) {id : String} {now : Decimal}
    (ha : ∀ e, m.localCache.get? id = some e → e.isExpired now = true → m.Alone id e) :
    (m.lookupLocalById id now).1.Indexed := by
  unfold lookupLocalById
  split
  · exact hm
  · rename_i e he
    split_ifs with hexp
    · exact expire_indexed hm he (ha e he hexp)
    · exact hm

theorem exportEntry_indexed (hm : m.Indexed) (transport : KVTransport) {id : String}
    {now : Decimal}
    (ha : ∀ e, m.localCache.get? id = some e → e.isExpired now = true → m.Alone id e) :
    (m.exportEntry transport id now).1.Indexed := by
  unfold exportEntry
  have hlookup := lookupLocalById_indexed hm ha
  split
  · rename_i m' h
    rw [h] at hlookup
    exact hlookup
  · rename_i m' e h
    obtain ⟨rfl,he⟩ := lookupLocalById_some h
    apply indexed_of_inPlace (m'.fillEntry transport id e) hm he
    · intro k
      simp only [syncLocalSizeDelta_cache,Dict.get?_set]
    · exact syncLocalSizeDelta_index ..
    · rfl
    · rfl
    · rfl

/-- The condition on a step: its stores keep the index right, and an entry that it finds
expired is alone under its key. -/
def KeepsLookups (m : KVSharingManager) : KvEvent → Prop
  | .lookup model promptHash now => ∀ id e, m.lookupIndex.get? (model,promptHash) = some id →
      m.localCache.get? id = some e → e.isExpired now = true → m.Alone id e
  | .lookupById id now | .exportEntry id now => ∀ e, m.localCache.get? id = some e →
      e.isExpired now = true → m.Alone id e
  | ev => ∀ p ∈ m.storeCalls ev, p.1.KeepsIndex p.2

theorem importBundle_indexed (hm : m.Indexed) {bundle : Option KVCacheEntry}
    (hk : ∀ p ∈ bundle.toList.map (fun e => (m,e)), p.1.KeepsIndex p.2) :
    (m.importBundle bundle).1.Indexed := by
  cases bundle with
  | none => exact hm
  | some e => exact storeLocal_indexed hm (hk (m,e) (by simp))

theorem load_indexed (items : List SavedItem) (now : Decimal) (hm : m.Indexed)
    (hk : ∀ p ∈ loadCalls items now m, p.1.KeepsIndex p.2) : (load items now m).Indexed := by
  induction items generalizing m with
  | nil => exact ⟨hm.keyed,hm.named,hm.sound,hm.complete⟩
  | cons item rest ih =>
    cases item with
    | broken id =>
      rw [load]
      rw [loadCalls] at hk
      split_ifs at hk ⊢
      · exact ih hm hk
      · exact hm
    | entry e =>
      rw [load]
      rw [loadCalls] at hk
      split_ifs at hk ⊢
      · exact ih hm hk
      · exact ih (storeLocal_indexed hm (hk (m,e) (List.mem_cons_self ..)))
          fun p hp => hk p (List.mem_cons_of_mem _ hp)

theorem step_indexed (hm : m.Indexed) (transport : KVTransport) {ev : KvEvent}
    (hk : m.KeepsLookups ev) : (m.step transport ev).Indexed := by
  cases ev with
  | store e => exact storeLocal_indexed hm (hk (m,e) (by simp [storeCalls]))
  | lookup model promptHash now => exact lookupLocal_indexed hm hk
  | lookupById id now => exact lookupLocalById_indexed hm hk
  | exportEntry id now => exact exportEntry_indexed hm transport hk
  | importBundle bundle => exact importBundle_indexed hm hk
  | importStream header chunks now =>
    rw [step,importStream_eq]
    exact importBundle_indexed hm hk
  | warm nodeId req now =>
    exact storeLocal_indexed hm (hk (m,warmEntry nodeId req now) (by simp [storeCalls]))
  | load items now => exact load_indexed items now hm hk
  | save => exact ⟨hm.keyed,hm.named,hm.sound,hm.complete⟩

theorem Indexed.answers (hm : m.Indexed) (model promptHash : String) (now : Decimal) :
    m.Answers model promptHash now (m.lookupLocal model promptHash now).2 := by
  unfold lookupLocal
  split
  · rename_i hnone
    intro id e he hmodel hhash
    obtain ⟨id',e',hindex,-⟩ := hm.complete id e he
    have hkey : e.key = (model,promptHash) := by rw [KVCacheEntry.key,hmodel,hhash]
    rw [hkey,hnone] at hindex
    exact absurd hindex (by simp)
  · rename_i id hindex
    obtain ⟨e,he,hkey⟩ := hm.sound _ _ hindex
    rw [if_neg (hm.named id e he)]
    simp only [he]
    split_ifs with hexp
    · intro id' x hx hmodel hhash
      have hxkey : x.key = (model,promptHash) := by rw [KVCacheEntry.key,hmodel,hhash]
      obtain ⟨i,y,hi,hy,hdead⟩ := hm.complete id' x hx
      rw [hxkey,hindex] at hi
      obtain rfl := Option.some.inj hi
      obtain rfl : y = e := Option.some.inj (hy.symm.trans he)
      rw [KVCacheEntry.isExpired_iff] at hexp ⊢
      exact hdead.trans_lt hexp
    · obtain ⟨hmodel,hhash⟩ := Prod.mk.inj hkey
      exact ⟨hmodel,hhash,eq_false_of_ne_true hexp⟩

/-- In every run whose steps keep the index right, every lookup is answered right. -/
theorem lookup_sound_complete (transport : KVTransport) (mb : ℚ) (compress : Bool)
    (h : (machine transport).Reaches KeepsLookups (create mb compress) m)
    (model promptHash : String) (now : Decimal) :
    m.Answers model promptHash now (m.lookupLocal model promptHash now).2 := by
  have hm : m.Indexed := by
    apply h.invariant (I := Indexed) _ (indexed_create mb compress)
    intro s ev t hs hk ht
    obtain rfl := Option.some.inj ht
    exact step_indexed hs transport hk
  exact hm.answers model promptHash now

def storedTwo : KVSharingManager :=
  ((create 1 true).step (fun _ _ _ => none) (.store (sizedEntry "a" 6))).step
    (fun _ _ _ => none) (.store (sizedEntry "b" 4))

theorem lookup_sound_complete_two :
    storedTwo.Answers "m" "a" (.ofNat 5) (storedTwo.lookupLocal "m" "a" (.ofNat 5)).2 ∧
      storedTwo.Answers "m" "b" (.ofNat 5) (storedTwo.lookupLocal "m" "b" (.ofNat 5)).2 := by
  have hfirst : (machine fun _ _ _ => none).Reaches KeepsLookups (create 1 true)
      ((create 1 true).step (fun _ _ _ => none) (.store (sizedEntry "a" 6))) := by
    refine Machine.Reaches.single (e := .store (sizedEntry "a" 6)) ?_ rfl
    intro p hp
    obtain rfl := List.mem_singleton.mp hp
    refine Or.inr ⟨by decide,?_⟩
    intro older rest h
    have hnil : older = [] ∧ rest = [] := List.append_eq_nil_iff.mp h.split.symm
    simp [hnil.1,hnil.2]
  have hsecond : (machine fun _ _ _ => none).Reaches KeepsLookups (create 1 true) storedTwo := by
    refine hfirst.tail (e := .store (sizedEntry "b" 4)) ?_ rfl
    intro p hp
    obtain rfl := List.mem_singleton.mp hp
    refine Or.inr ⟨by decide,?_⟩
    intro older rest h
    have hcache : ((create 1 true).step (fun _ _ _ => none)
        (.store (sizedEntry "a" 6))).localCache.entries = [("a",sizedEntry "a" 6)] := by
      decide +kernel
    rcases List.append_eq_singleton_iff.mp (hcache.symm.trans h.split).symm with
      ⟨rfl,rfl⟩ | ⟨rfl,rfl⟩
    · simp [sizedEntry,KVCacheEntry.key]
    · simp
  exact ⟨lookup_sound_complete _ 1 true hsecond "m" "a" (.ofNat 5),
    lookup_sound_complete _ 1 true hsecond "m" "b" (.ofNat 5)⟩

/-- A cache in which one prompt was warmed for two models. -/
def warmTwice : KVSharingManager :=
  ((create 1 true).step (fun _ _ _ => none) (.warm "n" ⟨"llama","hi","h",1,1⟩ (.ofNat 0))).step
    (fun _ _ _ => none) (.warm "n" ⟨"qwen","hi","h",1,1⟩ (.ofNat 0))

/-- The id of a warmed entry is the prompt's alone, so that the lookup for the first model is
answered with the entry of the second. -/
theorem lookup_returns_other_model :
    ¬∀ (transport : KVTransport) (mb : ℚ) (compress : Bool) (m : KVSharingManager),
      (machine transport).Reaches Machine.Any (create mb compress) m →
      ∀ (model promptHash : String) (now : Decimal),
        m.Answers model promptHash now (m.lookupLocal model promptHash now).2 := by
  intro h
  have hreach : (machine fun _ _ _ => none).Reaches Machine.Any (create 1 true) warmTwice :=
    Machine.Reaches.tail (Machine.Reaches.single trivial rfl) trivial rfl
  have hrun := h _ 1 true warmTwice hreach "llama" "h" (.ofNat 5)
  have hfound : (warmTwice.lookupLocal "llama" "h" (.ofNat 5)).2.map KVCacheEntry.modelName =
      some "qwen" := by decide +kernel
  obtain ⟨e,he,hmodel⟩ := Option.map_eq_some_iff.mp hfound
  rw [he] at hrun
  have hllama := hrun.1
  rw [hmodel] at hllama
  exact absurd hllama (by decide)

end KVSharingManager
end FusionMultiNodes

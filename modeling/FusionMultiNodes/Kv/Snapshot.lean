import FusionMultiNodes.Kv.EntryCodec
import FusionMultiNodes.Kv.Size

/-! Saving the cache of an agent and loading it into a fresh one. The entries are stored
anew in their order, which keeps them where they all fit, and rebuilds the index from the
order alone. -/
namespace FusionMultiNodes
namespace KVSharingManager

open Json

variable (m : KVSharingManager)

def snapshot (now : Decimal) : Json :=
  .obj [("saved_at",.float now),("entry_count",.int (m.saved now).length),
    ("entries",.arr ((m.saved now).map KVCacheEntry.serializeEntry))]

def saveFile (now : Decimal) : Bytes := (m.snapshot now).encode

def SavedItem.ofJson (now : Decimal) (j : Json) : SavedItem :=
  match KVCacheEntry.deserializeEntry j now with
  | some e => .entry e
  | none => .broken ((j.get? "cache_id").bind asStr)

def readItems (file : Bytes) (now : Decimal) : Option (List SavedItem) :=
  ((Json.decode file).bind asObj).bind fun d =>
    (d.optional asArr "entries" []).map fun items => items.map (SavedItem.ofJson now)

/-- `load` of a file; what is no snapshot leaves the cache alone. -/
def loadFile (file : Bytes) (now : Decimal) : KVSharingManager :=
  match readItems file now with
  | none => m
  | some items => load items now m

theorem readItems_saveFile (saveTime now : Decimal) :
    readItems (m.saveFile saveTime) now =
      some ((m.saved saveTime).map fun e => .entry e.reread) := by
  have hitem : ∀ e : KVCacheEntry, SavedItem.ofJson now e.serializeEntry = .entry e.reread := by
    intro e
    simp [SavedItem.ofJson,KVCacheEntry.deserialize_serialize]
  simp [readItems,saveFile,snapshot,Json.asObj,Json.optional,Json.get?,Json.asArr,hitem]

def storeAll (es : List KVCacheEntry) : KVSharingManager :=
  es.foldl (fun m e => (m.storeLocal e).1) m

variable {m} {e : KVCacheEntry} {es : List KVCacheEntry}

/-- Each size is allowed, and so is each running total from `used` on. -/
def Fits (max : ℚ) : ℤ → List ℤ → Prop
  | _, [] => True
  | used, n::ns => n ≤ max ∧ ((used + n : ℤ) : ℚ) ≤ max ∧ Fits max (used + n) ns

@[simp] theorem storeLocal_maxBytes (e : KVCacheEntry) :
    (m.storeLocal e).1.maxBytes = m.maxBytes := by
  unfold storeLocal
  split_ifs with hlarge
  · rfl
  · obtain ⟨older,rest,hev⟩ := makeRoom_evicted (m.uncount e.cacheId)
      (by rwa [uncount_maxBytes] : ¬(m.uncount e.cacheId).maxBytes < e.totalSizeBytes)
    have hlimit : ((m.uncount e.cacheId).makeRoom e.totalSizeBytes).maxBytes =
        (m.uncount e.cacheId).maxBytes := by simp only [maxBytes,hev.limit]
    exact hlimit.trans (uncount_maxBytes m e.cacheId)

theorem storeLocal_absent {id : String} (h : m.localCache.get? id = none) (hid : id ≠ e.cacheId) :
    (m.storeLocal e).1.localCache.get? id = none := by
  unfold storeLocal
  split_ifs with hlarge
  · exact h
  · obtain ⟨older,rest,hev⟩ := makeRoom_evicted (m.uncount e.cacheId)
      (by rwa [uncount_maxBytes] : ¬(m.uncount e.cacheId).maxBytes < e.totalSizeBytes)
    simp only [insert,Dict.get?_set,if_neg hid]
    apply Option.eq_none_iff_forall_ne_some.mpr
    intro x hx
    have hold := hev.keyed hx
    rw [uncount_cache,h] at hold
    exact absurd hold (by simp)

theorem storeLocal_of_fits (h : m.localCache.get? e.cacheId = none)
    (hsize : (e.totalSizeBytes : ℚ) ≤ m.maxBytes)
    (hroom : ((m.localSizeBytes + e.totalSizeBytes : ℤ) : ℚ) ≤ m.maxBytes) :
    (m.storeLocal e).1 = m.insert e := by
  push_cast at hroom
  rw [storeLocal,if_neg (not_lt.mpr hsize),uncount_of_none h,makeRoom,if_neg (not_lt.mpr hroom)]

/-- A store that is refused, or that has to make room, gains nothing. -/
theorem storeLocal_not_fits (hm : m.Counted) (h : m.localCache.get? e.cacheId = none)
    (hnot : ¬((e.totalSizeBytes : ℚ) ≤ m.maxBytes ∧
      ((m.localSizeBytes + e.totalSizeBytes : ℤ) : ℚ) ≤ m.maxBytes)) :
    (m.storeLocal e).1.localCache.entries.length ≤ m.localCache.entries.length := by
  by_cases hlarge : m.maxBytes < e.totalSizeBytes
  · rw [storeLocal,if_pos hlarge]
  · have hfull : m.maxBytes < ((m.localSizeBytes + e.totalSizeBytes : ℤ) : ℚ) :=
      not_le.mp fun hroom => hnot ⟨not_lt.mp hlarge,hroom⟩
    obtain ⟨older,rest,hev⟩ := makeRoom_evicted m hlarge
    have holder : older ≠ [] := by
      rintro rfl
      rcases hev.room with hrest | hroom
      · have hnil : m.localCache.entries = [] := by simpa [hrest] using hev.split
        rw [hm.sum,total_eq_bytesOf,hnil,bytesOf_nil,zero_add] at hfull
        exact hlarge hfull
      · rw [hev.size,bytesOf_nil,sub_zero] at hroom
        push_cast at hfull
        exact absurd hroom (not_le.mpr hfull)
    have hsplit := congrArg List.length hev.split
    rw [List.length_append] at hsplit
    have hpos := List.length_pos_iff.mpr holder
    have hgone : (m.makeRoom e.totalSizeBytes).localCache.get? e.cacheId = none := by
      apply Option.eq_none_iff_forall_ne_some.mpr
      intro x hx
      exact absurd (h.symm.trans (hev.keyed hx)) (by simp)
    rw [storeLocal,if_neg hlarge,uncount_of_none h]
    simp only [insert,Dict.length_set_of_none hgone,hev.cache]
    omega

theorem storeLocal_length_le (hm : m.Counted) (h : m.localCache.get? e.cacheId = none) :
    (m.storeLocal e).1.localCache.entries.length ≤ m.localCache.entries.length + 1 := by
  by_cases hfits : (e.totalSizeBytes : ℚ) ≤ m.maxBytes ∧
      ((m.localSizeBytes + e.totalSizeBytes : ℤ) : ℚ) ≤ m.maxBytes
  · rw [storeLocal_of_fits h hfits.1 hfits.2]
    simp only [insert,Dict.length_set_of_none h,le_refl]
  · exact (storeLocal_not_fits hm h hfits).trans (Nat.le_succ _)

theorem storeLocal_counted_of_absent (hm : m.Counted) (h : m.localCache.get? e.cacheId = none) :
    (m.storeLocal e).1.Counted :=
  (storeLocal_counted_iff hm e).mpr (keepsReplaced_of_absent (by simp [Dict.contains,h]))

/-- The entries `es` have ids of their own, and none of them is cached yet. -/
structure Fresh (m : KVSharingManager) (es : List KVCacheEntry) : Prop where
  nodup : (es.map KVCacheEntry.cacheId).Nodup
  absent : ∀ e ∈ es, m.localCache.get? e.cacheId = none

theorem Fresh.head (h : m.Fresh (e::es)) : m.localCache.get? e.cacheId = none :=
  h.absent e (List.mem_cons_self ..)

theorem Fresh.tail (h : m.Fresh (e::es)) : m.Fresh es :=
  ⟨(List.nodup_cons.mp h.nodup).2,fun x hx => h.absent x (List.mem_cons_of_mem _ hx)⟩

theorem Fresh.store (h : m.Fresh (e::es)) : (m.storeLocal e).1.Fresh es := by
  refine ⟨h.tail.nodup,?_⟩
  intro x hx
  apply storeLocal_absent (h.tail.absent x hx)
  intro hid
  exact (List.nodup_cons.mp h.nodup).1 (hid ▸ List.mem_map_of_mem hx)

theorem load_entries (now : Decimal) (h : m.Fresh es) :
    load (es.map .entry) now m =
      { m.storeAll (es.filter fun e => !e.isExpired now) with dirty := false } := by
  induction es generalizing m with
  | nil => rfl
  | cons e es ih =>
    have hcontains : m.localCache.contains e.cacheId = false := by simp [Dict.contains,h.head]
    rw [List.map_cons,load]
    by_cases hexp : e.isExpired now = true
    · rw [if_pos (Or.inr hexp),ih h.tail,List.filter_cons_of_neg (by simp [hexp])]
    · rw [if_neg (by simp [hcontains,hexp]),ih h.store,List.filter_cons_of_pos (by simp [hexp])]
      rfl

theorem storeAll_length_le (hm : m.Counted) (h : m.Fresh es) :
    (m.storeAll es).localCache.entries.length ≤ m.localCache.entries.length + es.length := by
  induction es generalizing m with
  | nil => exact le_rfl
  | cons e es ih =>
    have hrest := ih (storeLocal_counted_of_absent hm h.head) h.store
    have hfirst := storeLocal_length_le hm h.head
    simp only [storeAll,List.foldl_cons,List.length_cons] at hrest ⊢
    omega

theorem storeAll_length_lt (hm : m.Counted) (h : m.Fresh es)
    (hnot : ¬Fits m.maxBytes m.localSizeBytes (es.map KVCacheEntry.totalSizeBytes)) :
    (m.storeAll es).localCache.entries.length < m.localCache.entries.length + es.length := by
  induction es generalizing m with
  | nil => exact absurd trivial hnot
  | cons e es ih =>
    have hcounted := storeLocal_counted_of_absent hm h.head
    by_cases hfits : (e.totalSizeBytes : ℚ) ≤ m.maxBytes ∧
        ((m.localSizeBytes + e.totalSizeBytes : ℤ) : ℚ) ≤ m.maxBytes
    · have hstore := storeLocal_of_fits h.head hfits.1 hfits.2
      have hrest := ih hcounted h.store (by
        rw [storeLocal_maxBytes,hstore]
        exact fun hf => hnot ⟨hfits.1,hfits.2,hf⟩)
      have hfirst := storeLocal_length_le hm h.head
      simp only [storeAll,List.foldl_cons,List.length_cons] at hrest ⊢
      omega
    · have hrest := storeAll_length_le hcounted h.store
      have hfirst := storeLocal_not_fits hm h.head hfits
      simp only [storeAll,List.foldl_cons,List.length_cons] at hrest ⊢
      omega

/-- What a store of entries that all fit leaves: they follow the cached ones in their order,
and of several under one key the last is indexed. -/
structure Stored (m t : KVSharingManager) (es : List KVCacheEntry) : Prop where
  entries : t.localCache.entries = m.localCache.entries ++ es.map fun e => (e.cacheId,e)
  size : t.localSizeBytes = m.localSizeBytes + (es.map KVCacheEntry.totalSizeBytes).sum
  index : ∀ k, t.lookupIndex.get? k =
    ((es.reverse.find? fun e => decide (e.key = k)).map KVCacheEntry.cacheId).or
      (m.lookupIndex.get? k)

theorem storeAll_stored (h : m.Fresh es)
    (hfits : Fits m.maxBytes m.localSizeBytes (es.map KVCacheEntry.totalSizeBytes)) :
    Stored m (m.storeAll es) es := by
  induction es generalizing m with
  | nil => exact ⟨by simp [storeAll],by simp [storeAll],by simp [storeAll]⟩
  | cons e es ih =>
    obtain ⟨hsize,hroom,hrest⟩ := hfits
    have hstore := storeLocal_of_fits h.head hsize hroom
    have htail := ih (m := m.insert e) (hstore ▸ h.store) hrest
    have hall : m.storeAll (e::es) = (m.insert e).storeAll es := by
      rw [storeAll,List.foldl_cons,hstore]
      rfl
    have hset : (m.localCache.set e.cacheId e).entries =
        m.localCache.entries ++ [(e.cacheId,e)] := by
      rw [Dict.set,dif_neg (by simp [Dict.contains,h.head])]
    rw [hall]
    constructor
    · rw [htail.entries]
      simp [insert,hset]
    · rw [htail.size]
      simp only [insert,List.map_cons,List.sum_cons]
      omega
    · intro k
      rw [htail.index]
      simp only [insert,Dict.get?_set,List.reverse_cons,List.find?_append]
      cases es.reverse.find? fun e => decide (e.key = k) with
      | some x => rfl
      | none =>
        by_cases hk : k = e.key
        · simp [hk]
        · simp [hk,Ne.symm hk]

/-- An entry that has expired neither when the file is written nor when it is read. -/
def lives (saveTime now : Decimal) (e : KVCacheEntry) : Bool :=
  !e.isExpired saveTime && !e.isExpired now

/-- The entries that live, from the least to the most recently used. -/
def living (m : KVSharingManager) (live : KVCacheEntry → Bool) : List KVCacheEntry :=
  m.localCache.values.filter live

/-- `t` holds the living entries of `m` in the order of `m`, the part of its index that names
them, and its size without the other entries. -/
structure Restores (m : KVSharingManager) (live : KVCacheEntry → Bool) (t : KVSharingManager) :
    Prop where
  entries : t.localCache.entries = m.localCache.entries.filter fun p => live p.2
  index : ∀ k, t.lookupIndex.get? k =
    (m.lookupIndex.get? k).filter fun id => (m.localCache.get? id).any live
  size : t.localSizeBytes =
    m.localSizeBytes - bytesOf (m.localCache.entries.filter fun p => !live p.2)

/-- No living entry has an empty tensor, all of them fit from the first on, the size of the
cache is that of its entries, and of the living entries under one key the index names the
most recently used. -/
structure Restorable (m : KVSharingManager) (live : KVCacheEntry → Bool) : Prop where
  tensors : ∀ e ∈ m.living live, ∀ s ∈ e.shards, s.tensor ≠ some []
  fits : Fits m.maxBytes 0 ((m.living live).map KVCacheEntry.totalSizeBytes)
  sum : m.localSizeBytes = m.localCache.total KVCacheEntry.totalSizeBytes
  latest : ∀ k, (m.lookupIndex.get? k).filter (fun id => (m.localCache.get? id).any live) =
    ((m.living live).reverse.find? fun e => decide (e.key = k)).map KVCacheEntry.cacheId

theorem entries_living (hm : m.Keyed) (live : KVCacheEntry → Bool) :
    m.localCache.entries.filter (fun p => live p.2) =
      (m.living live).map fun e => (e.cacheId,e) := by
  have hpair : ∀ p ∈ m.localCache.entries.filter (fun p => live p.2), (p.2.cacheId,p.2) = p := by
    intro p hp
    exact Prod.ext (hm _ _ (Dict.get?_eq_some_iff.mpr (List.mem_filter.mp hp).1)) rfl
  rw [living,Dict.values,List.filter_map,List.map_map]
  exact ((List.map_congr_left hpair).trans (List.map_id _)).symm

theorem bytesOf_filter (live : KVCacheEntry → Bool) (l : List (String × KVCacheEntry)) :
    bytesOf (l.filter fun p => live p.2) + bytesOf (l.filter fun p => !live p.2) = bytesOf l := by
  induction l with
  | nil => rfl
  | cons p l ih =>
    cases h : live p.2 with
    | true =>
      simp only [List.filter_cons,h,Bool.not_true,if_true,Bool.false_eq_true,if_false,bytesOf_cons]
      omega
    | false =>
      simp only [List.filter_cons,h,Bool.not_false,if_true,Bool.false_eq_true,if_false,
        bytesOf_cons]
      omega

section
variable (mb : ℚ) (compress : Bool)

@[simp] theorem create_entries : (create mb compress).localCache.entries = [] := rfl

@[simp] theorem create_size : (create mb compress).localSizeBytes = 0 := rfl

@[simp] theorem create_index (k : String × String) :
    (create mb compress).lookupIndex.get? k = none := rfl

end

theorem living_fresh (hm : m.Keyed) (live : KVCacheEntry → Bool) (mb : ℚ) (compress : Bool) :
    (create mb compress).Fresh ((m.living live).map KVCacheEntry.reread) := by
  refine ⟨?_,fun _ _ => rfl⟩
  have hids := congrArg (List.map Prod.fst) (entries_living hm live)
  rw [List.map_map] at hids
  have hsub := m.localCache.nodup.sublist (List.filter_sublist (p := fun p => live p.2)|>.map Prod.fst)
  rw [hids] at hsub
  rw [List.map_map]
  exact hsub

/-- The cache after a restart: a fresh one of the same configuration, loaded from the file. -/
def restart (m : KVSharingManager) (saveTime now : Decimal) : KVSharingManager :=
  (create m.maxLocalCacheMb m.enableCompression).loadFile (m.saveFile saveTime) now

theorem restart_eq (hm : m.Keyed) (saveTime now : Decimal) :
    m.restart saveTime now =
      { (create m.maxLocalCacheMb m.enableCompression).storeAll
          ((m.living (lives saveTime now)).map KVCacheEntry.reread) with dirty := false } := by
  have hfresh := living_fresh hm (fun e => !e.isExpired saveTime) m.maxLocalCacheMb
    m.enableCompression
  have hload := load_entries now hfresh
  have hlives : ((m.saved saveTime).map KVCacheEntry.reread).filter (fun e => !e.isExpired now) =
      (m.living (lives saveTime now)).map KVCacheEntry.reread := by
    rw [List.filter_map,saved,List.filter_filter,living]
    congr 1
    exact List.filter_congr fun e _ => Bool.and_comm ..
  have hitems : (m.saved saveTime).map (fun e => SavedItem.entry e.reread) =
      ((m.saved saveTime).map KVCacheEntry.reread).map .entry := (List.map_map ..).symm
  rw [restart,loadFile,readItems_saveFile,hitems,← hlives]
  exact hload

theorem map_reread_eq (m : KVSharingManager) (live : KVCacheEntry → Bool) :
    (m.living live).map KVCacheEntry.reread = m.living live ↔
      ∀ e ∈ m.living live, ∀ s ∈ e.shards, s.tensor ≠ some [] := by
  constructor
  · intro h e he
    have hself := List.map_inj_left.mp (h.trans (List.map_id' _).symm) e he
    exact KVCacheEntry.reread_eq_self.mp hself
  · intro h
    exact (List.map_congr_left fun e he => KVCacheEntry.reread_eq_self.mpr (h e he)).trans
      (List.map_id' _)

/-- A restart restores the living entries, their index and their size if and only if they
are restorable. -/
theorem restart_restores_iff (hm : m.Keyed) (saveTime now : Decimal) :
    m.Restores (lives saveTime now) (m.restart saveTime now) ↔
      m.Restorable (lives saveTime now) := by
  have hfresh := living_fresh hm (lives saveTime now) m.maxLocalCacheMb m.enableCompression
  have hentries := entries_living hm (lives saveTime now)
  have hbytes := bytesOf_filter (lives saveTime now) m.localCache.entries
  have hliving : bytesOf (m.localCache.entries.filter fun p => lives saveTime now p.2) =
      ((m.living (lives saveTime now)).map KVCacheEntry.totalSizeBytes).sum := by
    rw [hentries,bytesOf,List.map_map]
    rfl
  have hsizes : ((m.living (lives saveTime now)).map KVCacheEntry.reread).map
      KVCacheEntry.totalSizeBytes =
      (m.living (lives saveTime now)).map KVCacheEntry.totalSizeBytes := by
    rw [List.map_map]
    rfl
  rw [restart_eq hm]
  constructor
  · intro h
    have hfits : Fits m.maxBytes 0 ((m.living (lives saveTime now)).map
        KVCacheEntry.totalSizeBytes) := by
      by_contra hnot
      rw [← hsizes] at hnot
      have hlt := storeAll_length_lt (counted_create _ _) hfresh hnot
      have hlen := congrArg List.length (h.entries.trans hentries)
      simp only [List.length_map] at hlen hlt
      rw [hlen] at hlt
      simp at hlt
    have hstored := storeAll_stored hfresh (by rw [hsizes]; exact hfits)
    have hpairs := (hstored.entries.symm.trans h.entries).trans hentries
    have hreread : (m.living (lives saveTime now)).map KVCacheEntry.reread =
        m.living (lives saveTime now) := by
      have hsnd := congrArg (List.map Prod.snd) hpairs
      simpa [List.map_map,Function.comp_def] using hsnd
    constructor
    · exact (map_reread_eq m _).mp hreread
    · exact hfits
    · have hsize := hstored.size.symm.trans h.size
      rw [hsizes] at hsize
      rw [total_eq_bytesOf,← hbytes,hliving]
      rw [create_size] at hsize
      omega
    · intro k
      have hindex := (h.index k).symm.trans (hstored.index k)
      rw [hindex,hreread]
      simp
  · intro h
    have hreread := (map_reread_eq m _).mpr h.tensors
    have hstored := storeAll_stored hfresh (by rw [hsizes]; exact h.fits)
    rw [hreread] at hstored ⊢
    constructor
    · rw [hentries]
      simpa using hstored.entries
    · intro k
      rw [h.latest k]
      simpa using hstored.index k
    · have hsize := hstored.size
      have hsum := h.sum
      rw [total_eq_bytesOf,← hbytes,hliving] at hsum
      rw [create_size] at hsize
      simp only [hsize,hsum]
      omega

theorem reaches_keyed {transport : KVTransport} {mb : ℚ} {compress : Bool}
    (h : (machine transport).Reaches Machine.Any (create mb compress) m) : m.Keyed := by
  apply h.invariant (I := Keyed) _ (counted_create mb compress).keyed
  intro s ev t hs _ ht
  obtain rfl := Option.some.inj ht
  exact step_keyed hs transport ev

/-- An entry is read back as it was written if and only if none of its tensors is empty, and
a restart of any reachable cache restores it if and only if it is restorable. -/
theorem codec_and_restart_iff (transport : KVTransport) (mb : ℚ) (compress : Bool)
    (h : (machine transport).Reaches Machine.Any (create mb compress) m) (e : KVCacheEntry)
    (saveTime now : Decimal) :
    (KVCacheEntry.deserializeEntry e.serializeEntry now = some e ↔
      ∀ s ∈ e.shards, s.tensor ≠ some []) ∧
    (m.Restores (lives saveTime now) (m.restart saveTime now) ↔
      m.Restorable (lives saveTime now)) := by
  refine ⟨?_,restart_restores_iff (reaches_keyed h) saveTime now⟩
  rw [KVCacheEntry.deserialize_serialize,Option.some_inj]
  exact KVCacheEntry.reread_eq_self

def shardEntry (id : String) (tensor : Option Bytes) : KVCacheEntry :=
  { cacheId := id, modelName := "m", promptHash := "h", promptPrefix := "", totalSizeBytes := 2
    shards := [⟨"s","m",0,"n",1,2,.ofNat 0,0,.ofNat 0,false,tensor⟩] }

def oneTensor : KVSharingManager :=
  (create 1 true).step (fun _ _ _ => none) (.store (shardEntry "a" (some [7,9])))

theorem oneTensor_eq : oneTensor = (create 1 true).insert (shardEntry "a" (some [7,9])) := by
  apply storeLocal_of_fits rfl
  · norm_num [shardEntry,create,maxBytes]
  · norm_num [shardEntry,create,maxBytes]

def twoTensors : KVCacheEntry :=
  { shardEntry "b" none with
    promptHash := "g"
    shards := [⟨"s","m",0,"n",1,2,.ofNat 0,0,.ofNat 0,false,some [7,9]⟩,
      ⟨"t","m",1,"n",1,2,.ofNat 0,0,.ofNat 0,false,some [1]⟩] }

def storedPair : KVSharingManager := oneTensor.step (fun _ _ _ => none) (.store twoTensors)

theorem storedPair_eq :
    storedPair = ((create 1 true).insert (shardEntry "a" (some [7,9]))).insert twoTensors := by
  rw [← oneTensor_eq]
  apply storeLocal_of_fits (by rw [oneTensor_eq]; rfl)
  · norm_num [twoTensors,shardEntry,oneTensor_eq,insert,create,maxBytes]
  · norm_num [twoTensors,shardEntry,oneTensor_eq,insert,create,maxBytes]

/-- The cache holds two entries under two keys, one of them with two tensors. -/
theorem codec_and_restart_pair :
    KVCacheEntry.deserializeEntry twoTensors.serializeEntry (.ofNat 6) = some twoTensors ∧
      storedPair.Restores (lives (.ofNat 5) (.ofNat 6))
        (storedPair.restart (.ofNat 5) (.ofNat 6)) := by
  have hboth := codec_and_restart_iff (m := storedPair) (fun _ _ _ => none) 1 true
    ((Machine.Reaches.single (e := .store (shardEntry "a" (some [7,9]))) trivial rfl).tail
      (e := .store twoTensors) trivial rfl) twoTensors (.ofNat 5) (.ofNat 6)
  have hliving : storedPair.living (lives (.ofNat 5) (.ofNat 6)) =
      [shardEntry "a" (some [7,9]),twoTensors] := by decide +kernel
  have hindex : storedPair.lookupIndex = (Dict.set ∅ ("m","h") "a").set ("m","g") "b" := by
    rw [storedPair_eq]
    rfl
  refine ⟨hboth.1.mpr (by decide),hboth.2.mpr ⟨by rw [hliving]; decide,?_,by decide +kernel,?_⟩⟩
  · rw [hliving,storedPair_eq]
    norm_num [Fits,twoTensors,shardEntry,insert,create,maxBytes]
  · intro k
    by_cases hone : k = ("m","h")
    · subst hone
      decide +kernel
    · by_cases htwo : k = ("m","g")
      · subst htwo
        decide +kernel
      · have hk : ("m","h") ≠ k ∧ ("m","g") ≠ k := ⟨Ne.symm hone,Ne.symm htwo⟩
        rw [hliving,hindex,Dict.get?_set_ne _ _ htwo,Dict.get?_set_ne _ _ hone]
        simp [twoTensors,shardEntry,KVCacheEntry.key,hk.1,hk.2]

/-- A cache in which one key is stored under two ids and then under the first anew. -/
def storedAnew : KVSharingManager :=
  ((oneTensor.step (fun _ _ _ => none) (.store (shardEntry "b" none))).step
    (fun _ _ _ => none) (.store (shardEntry "a" none)))

/-- An empty tensor is read back as none, and an entry that is stored anew keeps its place
while the index goes to it. -/
theorem restart_moves_index :
    (¬∀ (e : KVCacheEntry) (now : Decimal),
      KVCacheEntry.deserializeEntry e.serializeEntry now = some e) ∧
    ¬∀ (transport : KVTransport) (mb : ℚ) (compress : Bool) (m : KVSharingManager),
      (machine transport).Reaches Machine.Any (create mb compress) m →
      ∀ saveTime now : Decimal, m.Restores (lives saveTime now) (m.restart saveTime now) := by
  constructor
  · intro h
    have hback := h (shardEntry "a" (some [])) (.ofNat 0)
    rw [KVCacheEntry.deserialize_serialize,Option.some_inj,KVCacheEntry.reread_eq_self] at hback
    exact hback _ (List.mem_singleton_self _) rfl
  · intro h
    have hreach : (machine fun _ _ _ => none).Reaches Machine.Any (create 1 true) storedAnew :=
      ((Machine.Reaches.single (e := .store (shardEntry "a" (some [7,9]))) trivial rfl).tail
        (e := .store (shardEntry "b" none)) trivial rfl).tail
        (e := .store (shardEntry "a" none)) trivial rfl
    have hrestores := h _ 1 true storedAnew hreach (.ofNat 5) (.ofNat 6)
    have hlatest := ((restart_restores_iff (reaches_keyed hreach) _ _).mp hrestores).latest ("m","h")
    revert hlatest
    decide +kernel

end KVSharingManager
end FusionMultiNodes

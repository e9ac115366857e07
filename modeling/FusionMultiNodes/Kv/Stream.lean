import FusionMultiNodes.Kv.Size
import FusionMultiNodes.Lib.Lists

/-! The binary stream of an entry. The reader drops what a chunk holds past the end of a
tensor and takes a short tensor for an absent one, so that it restores the entry exactly
when every tensor ends where a chunk ends, and fails only inside the header. -/
namespace FusionMultiNodes
namespace KVSharingManager

/-- Gathering takes the fewest chunks that hold `need` bytes, or all of them. -/
theorem gather_spec (need : ℕ) (got : Bytes) (chunks : List Bytes) :
    ∃ i, gather need got chunks = (got ++ (chunks.take i).flatten,chunks.drop i) ∧
      (need ≤ (got ++ (chunks.take i).flatten).length ∨ chunks.length ≤ i) ∧
      ∀ j < i, (got ++ (chunks.take j).flatten).length < need := by
  induction chunks generalizing got with
  | nil => exact ⟨0,by simp [gather],Or.inr (by simp),by simp⟩
  | cons c cs ih =>
    rw [gather]
    split_ifs with h
    · exact ⟨0,by simp,Or.inl (by simpa using h),by simp⟩
    · obtain ⟨i,heq,hend,hmin⟩ := ih (got ++ c)
      refine ⟨i + 1,by simpa using heq,?_,?_⟩
      · simpa using hend
      · intro j hj
        cases j with
        | zero => simpa using h
        | succ j => simpa using hmin j (by omega)

/-- Where a chunk ends after `need` bytes, just these are gathered. -/
theorem length_gather_of_endsAt {need : ℕ} {chunks : List Bytes} {i : ℕ}
    (hend : need ≤ (chunks.take i).flatten.length ∨ chunks.length ≤ i)
    (hmin : ∀ j < i, (chunks.take j).flatten.length < need) (h : EndsAt chunks need) :
    (chunks.take i).flatten.length = need := by
  obtain ⟨j,hj⟩ := h
  have hij : i ≤ j := by
    by_contra hlt
    have := hmin j (by omega)
    omega
  have hle := length_take_mono chunks hij
  rcases hend with hend | hall
  · omega
  · have hge := length_take_add_drop chunks j
    rw [List.take_of_length_le hall] at hle ⊢
    omega

def payloads (ts : List (Option Bytes)) : Bytes := ts.flatMap fun t => t.getD []

def lengths (ts : List (Option Bytes)) : List ℤ := ts.map fun t => ((t.getD []).length : ℤ)

theorem readTensors_empty {t : Option Bytes} (h : t.getD [] = []) (ts : List (Option Bytes))
    (chunks : List Bytes) :
    readTensors (lengths (t::ts)) chunks = none :: readTensors (lengths ts) chunks := by
  simp [lengths,readTensors,h]

/-- A tensor that is there is read right, however the stream is cut. -/
theorem readTensors_some {b : Bytes} (hb : b ≠ []) (ts : List (Option Bytes))
    {chunks : List Bytes} (hlen : b.length ≤ chunks.flatten.length) :
    ∃ i, readTensors (lengths (some b::ts)) chunks =
        some ((chunks.take i).flatten.take b.length) :: readTensors (lengths ts) (chunks.drop i) ∧
      b.length ≤ (chunks.take i).flatten.length ∧
      (EndsAt chunks b.length → (chunks.take i).flatten.length = b.length) := by
  obtain ⟨i,heq,hend,hmin⟩ := gather_spec b.length [] chunks
  simp only [List.nil_append] at heq hend hmin
  have hpos : ¬((b.length : ℤ) ≤ 0) := by
    have := List.length_pos_iff.mpr hb
    omega
  have hge : b.length ≤ (chunks.take i).flatten.length := by
    rcases hend with hend | hall
    · exact hend
    · rwa [List.take_of_length_le hall]
  refine ⟨i,?_,hge,length_gather_of_endsAt hend hmin⟩
  simp only [lengths,List.map_cons,Option.getD_some,readTensors,if_neg hpos,Int.toNat_natCast,heq,
    if_pos hge]

theorem payloads_le_of_readTensors {ts : List (Option Bytes)} {chunks : List Bytes}
    (h : readTensors (lengths ts) chunks = ts) :
    (payloads ts).length ≤ chunks.flatten.length := by
  induction ts generalizing chunks with
  | nil => simp [payloads]
  | cons t ts ih =>
    by_cases ht : t.getD [] = []
    · rw [readTensors_empty ht] at h
      have hrec := ih (List.cons.inj h).2
      simpa [payloads,ht] using hrec
    · obtain ⟨b,rfl⟩ : ∃ b, t = some b := by
        cases t with
        | none => simp at ht
        | some b => exact ⟨b,rfl⟩
      obtain ⟨i,heq,-,-⟩ := gather_spec b.length [] chunks
      have hpos : ¬((b.length : ℤ) ≤ 0) := by
        have := List.length_pos_iff.mpr (by simpa using ht)
        omega
      simp only [lengths,List.map_cons,Option.getD_some,readTensors,if_neg hpos,Int.toNat_natCast,
        heq,List.nil_append] at h
      obtain ⟨hhead,htail⟩ := List.cons.inj h
      have hrec := ih htail
      split_ifs at hhead with hge
      have hall := length_take_add_drop chunks i
      simp only [payloads,List.flatMap_cons,Option.getD_some,List.length_append] at hrec ⊢
      omega

/-- The tensors come back exactly when none is empty and each ends where a chunk ends. -/
theorem readTensors_eq_iff {ts : List (Option Bytes)} {chunks : List Bytes}
    (hcut : chunks.flatten = payloads ts) :
    readTensors (lengths ts) chunks = ts ↔
      (∀ t ∈ ts, t ≠ some []) ∧ ∀ j, EndsAt chunks (payloads (ts.take j)).length := by
  induction ts generalizing chunks with
  | nil => simp [lengths,readTensors,payloads,endsAt_zero]
  | cons t ts ih =>
    have hsplit : (∀ j, EndsAt chunks (payloads ((t::ts).take j)).length) ↔
        ∀ j, EndsAt chunks ((t.getD []).length + (payloads (ts.take j)).length) := by
      constructor
      · intro h j
        simpa [payloads] using h (j+1)
      · intro h j
        cases j with
        | zero => exact endsAt_zero _
        | succ j => simpa [payloads] using h j
    rw [hsplit]
    by_cases ht : t.getD [] = []
    · have hskip : chunks.flatten = payloads ts := by simpa [payloads,ht] using hcut
      have hrec := ih hskip
      rw [readTensors_empty ht,List.cons.injEq,hrec]
      simp only [ht,List.length_nil,zero_add,List.mem_cons,forall_eq_or_imp]
      cases t with
      | none => simp
      | some b => simp_all
    · obtain ⟨b,rfl⟩ : ∃ b, t = some b := by
        cases t with
        | none => simp at ht
        | some b => exact ⟨b,rfl⟩
      have hb : b ≠ [] := by simpa using ht
      have hbody : chunks.flatten = b ++ payloads ts := by simpa [payloads] using hcut
      have hlong : b.length ≤ chunks.flatten.length := by simp [hbody]
      obtain ⟨i,heq,hge,hexact⟩ := readTensors_some hb ts hlong
      have hboth : (chunks.take i).flatten ++ (chunks.drop i).flatten = b ++ payloads ts := by
        rw [← List.flatten_append,List.take_append_drop,hbody]
      have hhead : (chunks.take i).flatten.take b.length = b := by
        have htake := congrArg (List.take b.length) hboth
        rwa [List.take_append_of_le_length hge,List.take_left] at htake
      rw [heq,hhead,List.cons.injEq]
      simp only [true_and,Option.getD_some,List.mem_cons,forall_eq_or_imp]
      by_cases hL : (chunks.take i).flatten.length = b.length
      · have hrest : (chunks.drop i).flatten = payloads ts := (List.append_inj hboth hL).2
        rw [ih hrest]
        have hends : ∀ k, EndsAt (chunks.drop i) k ↔ EndsAt chunks (b.length + k) := by
          intro k
          rw [endsAt_drop_iff,hL]
        simp only [hends]
        simp [hb]
      · -- a chunk reaches over the end of this tensor, and what follows is too short
        constructor
        · intro h
          have hle := payloads_le_of_readTensors h
          have hlen := congrArg List.length hboth
          simp only [List.length_append] at hlen
          omega
        · rintro ⟨-,hends⟩
          have hfirst := hends 0
          simp only [List.take_zero,payloads,List.flatMap_nil,List.length_nil,add_zero] at hfirst
          exact absurd (hexact hfirst) hL

def streamHeader (e : KVCacheEntry) : Bytes :=
  kvStreamMagic ++ bigEndian 4 (Json.obj e.streamMembers).encode.length ++
    (Json.obj e.streamMembers).encode

def tensors (e : KVCacheEntry) : List (Option Bytes) := e.shards.map KVShard.tensor

/-- The chunks of an exported entry are its header and its tensors. -/
theorem exportStream_flatten {src : KVSharingManager} {transport : KVTransport} {id : String}
    {now : Decimal} {out : List Bytes} {e : KVCacheEntry}
    (hout : (src.exportStream transport id now).2 = some out)
    (he : (src.exportStream transport id now).1.localCache.get? id = some e) :
    (Json.obj e.streamMembers).encode.length < 256 ^ 4 ∧
      out.flatten = streamHeader e ++ payloads (tensors e) := by
  unfold exportStream at hout he
  split at hout
  · simp at hout
  · rename_i m x hexport
    simp only [hexport] at he
    have hx : e = x := by
      unfold exportEntry at hexport
      split at hexport
      · simp at hexport
      · rename_i m' y hy
        obtain ⟨rfl,hxy⟩ := Prod.mk.inj hexport
        rw [syncLocalSizeDelta_cache] at he
        simp only [Dict.get?_set_self] at he
        exact (Option.some.inj he).symm.trans (Option.some.inj hxy)
    subst hx
    obtain ⟨len,hlen,hchunks⟩ := Option.map_eq_some_iff.mp hout
    obtain ⟨hlt,hlen⟩ := Option.ite_none_right_eq_some.mp hlen
    refine ⟨hlt,?_⟩
    rw [← hchunks,List.flatten_cons,List.flatten_filter_ne_nil,streamHeader,
      Option.some.inj hlen,payloads,tensors,List.flatMap_map,List.flatMap_def]
    rfl

theorem fromBytes_header {e : KVCacheEntry} (h : (Json.obj e.streamMembers).encode.length < 256 ^ 4)
    (rest : Bytes) :
    headerLength (streamHeader e ++ rest) = (streamHeader e).length := by
  have hmagic : kvStreamMagic.length = 8 := rfl
  have hfield : ((streamHeader e ++ rest).drop 8).take 4 =
      bigEndian 4 (Json.obj e.streamMembers).encode.length := by
    rw [streamHeader,List.append_assoc,List.append_assoc,List.drop_left' hmagic,
      List.take_left' (length_bigEndian 4 _)]
  rw [headerLength,hfield,fromBytes_bigEndian h,streamHeader]
  simp only [List.length_append,hmagic,length_bigEndian]

theorem rebuildShard_meta (s : KVShard) (t : Option Bytes) :
    rebuildShard s.meta t = { s with tensor := t } := by
  cases t <;> rfl

theorem length_readTensors (ns : List ℤ) (chunks : List Bytes) :
    (readTensors ns chunks).length = ns.length := by
  induction ns generalizing chunks with
  | nil => rfl
  | cons n ns ih =>
    rw [readTensors]
    split_ifs <;> simp [ih]

theorem zipWith_rebuild_iff (l : List KVShard) (ts : List (Option Bytes))
    (h : ts.length = l.length) :
    List.zipWith rebuildShard (l.map KVShard.meta) ts = l ↔ ts = l.map KVShard.tensor := by
  induction l generalizing ts with
  | nil =>
    obtain rfl := List.length_eq_zero_iff.mp h
    simp
  | cons s l ih =>
    cases ts with
    | nil => simp at h
    | cons t ts =>
      have hrec := ih ts (by simpa using h)
      simp only [List.map_cons,List.zipWith_cons_cons,List.cons.injEq,rebuildShard_meta,hrec]
      constructor
      · rintro ⟨hs,hts⟩
        exact ⟨congrArg KVShard.tensor hs,hts⟩
      · rintro ⟨rfl,hts⟩
        exact ⟨rfl,hts⟩

def received (e : KVCacheEntry) (chunks : List Bytes) : KVCacheEntry :=
  rebuildEntry ⟨{ e with shards := [] },e.shards.map KVShard.meta⟩ chunks

theorem lengths_tensors (e : KVCacheEntry) :
    (e.shards.map KVShard.meta).map ShardMeta.tensorLen = lengths (tensors e) := by
  simp [lengths,tensors,KVShard.meta,KVShard.payload]

theorem received_eq_iff {e : KVCacheEntry} {chunks : List Bytes} :
    received e chunks = e ↔ readTensors (lengths (tensors e)) chunks = tensors e := by
  have hlen : (readTensors (lengths (tensors e)) chunks).length = e.shards.length := by
    rw [length_readTensors]
    simp [lengths,tensors]
  rw [tensors,← zipWith_rebuild_iff e.shards _ (by simpa [tensors] using hlen)]
  constructor
  · intro h
    have hshards := congrArg KVCacheEntry.shards h
    simpa only [received,rebuildEntry,lengths_tensors,tensors] using hshards
  · intro h
    simp only [received,rebuildEntry,lengths_tensors]
    rw [tensors,h]

theorem decodeStream_header (e : KVCacheEntry)
    (h : (Json.obj e.streamMembers).encode.length < 256 ^ 4) (chunks : List Bytes)
    (now : Decimal) : decodeStream (streamHeader e) chunks now = some (received e chunks) := by
  have hmagic : kvStreamMagic.length = 8 := rfl
  have hfield : ((streamHeader e).drop 8).take 4 =
      bigEndian 4 (Json.obj e.streamMembers).encode.length := by
    rw [streamHeader,List.append_assoc,List.drop_left' hmagic,
      List.take_left' (length_bigEndian 4 _)]
  have hmeta : ((streamHeader e).drop 12).take (Json.obj e.streamMembers).encode.length =
      (Json.obj e.streamMembers).encode := by
    rw [streamHeader,List.drop_left' (by simp [hmagic]),List.take_length]
  have hbelow : kvStreamMagic.isPrefixOf (streamHeader e) = true := by
    have hpre : kvStreamMagic <+: streamHeader e := ⟨_,(List.append_assoc ..).symm⟩
    simpa using hpre
  rw [decodeStream,if_pos hbelow,hfield,fromBytes_bigEndian h,hmeta,Json.decode_encode,
    Option.bind_some,StreamMeta.ofJson_streamMembers,Option.map_some,received]

theorem flatten_skipBytes (n : ℕ) (chunks : List Bytes) :
    (skipBytes n chunks).flatten = chunks.flatten.drop n := by
  induction chunks generalizing n with
  | nil => simp [skipBytes]
  | cons c cs ih =>
    rw [skipBytes]
    split_ifs with h
    · rw [List.flatten_cons,List.flatten_cons,List.drop_append_of_le_length h.le]
    · rw [ih,List.flatten_cons,List.drop_append,List.drop_of_length_le (not_lt.mp h),
        List.nil_append]

variable {dst : KVSharingManager} {e : KVCacheEntry} {chunks : List Bytes}

/-- Behind an intact header the entry is stored, whatever follows. -/
theorem receiveStream_header (h : (Json.obj e.streamMembers).encode.length < 256 ^ 4)
    {body : Bytes} (hcut : chunks.flatten = streamHeader e ++ body) (now : Decimal) :
    dst.receiveStream chunks now =
      dst.storeLocal (received e (skipBytes (streamHeader e).length chunks)) := by
  have hlen : headerLength chunks.flatten = (streamHeader e).length := by
    rw [hcut,fromBytes_header h]
  have hhead : chunks.flatten.take (streamHeader e).length = streamHeader e := by
    rw [hcut,List.take_left]
  rw [receiveStream]
  simp only [hlen,hhead]
  rw [importStream,decodeStream_header e h]

theorem decode_nil : Json.decode [] = none := by
  decide

theorem receiveStream_short (h : (Json.obj e.streamMembers).encode.length < 256 ^ 4)
    {rest : Bytes} (hcut : chunks.flatten ++ rest = streamHeader e) (hrest : rest ≠ [])
    (now : Decimal) : dst.receiveStream chunks now = (dst,false) := by
  have hmagic : kvStreamMagic.length = 8 := rfl
  have hnone : decodeStream (chunks.flatten.take (headerLength chunks.flatten))
      (skipBytes (headerLength chunks.flatten) chunks) now = none := by
    generalize chunks.flatten = p at hcut
    rw [decodeStream]
    split_ifs with hpre
    · have htake : p.take (headerLength p) <+: p := List.take_prefix ..
      have hmagicPre : kvStreamMagic <+: p.take (headerLength p) := by simpa using hpre
      obtain ⟨q,rfl⟩ := hmagicPre.trans htake
      have hq : q ++ rest = bigEndian 4 (Json.obj e.streamMembers).encode.length ++
          (Json.obj e.streamMembers).encode := by
        simpa only [streamHeader,List.append_assoc,List.append_cancel_left_eq] using hcut
      by_cases hshort : q.length < 4
      · have hnil : ((kvStreamMagic ++ q).take (headerLength (kvStreamMagic ++ q))).drop 12 = [] := by
          rw [List.drop_eq_nil_iff,List.length_take,List.length_append,hmagic]
          omega
        rw [hnil,List.take_nil,decode_nil,Option.bind_none,Option.map_none]
      · -- the length field is there, so part of the metadata is missing
        have hfield : q.take 4 = bigEndian 4 (Json.obj e.streamMembers).encode.length := by
          have htake := congrArg (List.take 4) hq
          rwa [List.take_append_of_le_length (not_lt.mp hshort),
            List.take_left' (length_bigEndian 4 _)] at htake
        have hmeta : (Json.obj e.streamMembers).encode = q.drop 4 ++ rest := by
          have hdrop := congrArg (List.drop 4) hq
          rw [List.drop_append_of_le_length (not_lt.mp hshort),
            List.drop_left' (length_bigEndian 4 _)] at hdrop
          exact hdrop.symm
        have hlen : headerLength (kvStreamMagic ++ q) =
            12 + (Json.obj e.streamMembers).encode.length := by
          rw [headerLength,List.drop_left' hmagic,hfield,fromBytes_bigEndian h]
        have hall : (kvStreamMagic ++ q).take (headerLength (kvStreamMagic ++ q)) =
            kvStreamMagic ++ q := by
          apply List.take_of_length_le
          rw [hlen,hmeta,List.length_append,List.length_append,List.length_drop,hmagic]
          omega
        have hpart : (kvStreamMagic ++ q).drop 12 = q.drop 4 := by
          rw [List.drop_append,hmagic]
          rfl
        rw [hall,hpart,List.drop_left' hmagic,hfield,fromBytes_bigEndian h,
          List.take_of_length_le (by rw [hmeta,List.length_append]; omega),
          Json.decode_part hmeta hrest,Option.bind_none,Option.map_none]
    · rfl
  rw [receiveStream,importStream]
  simp only [hnone]

theorem storeLocal_stored_iff (x : KVCacheEntry) :
    (dst.storeLocal x).2 = true ↔ (x.totalSizeBytes : ℚ) ≤ dst.maxBytes := by
  unfold storeLocal
  split_ifs with h
  · simpa using h
  · simpa using h

theorem storeLocal_get? {x : KVCacheEntry} (h : (dst.storeLocal x).2 = true) :
    (dst.storeLocal x).1.localCache.get? x.cacheId = some x := by
  unfold storeLocal at h ⊢
  split_ifs at h ⊢
  simp [insert]

/-- The stream is taken in, and what is stored is `e`. -/
def Delivers (dst : KVSharingManager) (e : KVCacheEntry) (now : Decimal) (chunks : List Bytes) :
    Prop :=
  (dst.receiveStream chunks now).2 = true ∧
    (dst.receiveStream chunks now).1.localCache.get? e.cacheId = some e

def Refuses (dst : KVSharingManager) (now : Decimal) (chunks : List Bytes) : Prop :=
  dst.receiveStream chunks now = (dst,false)

theorem delivers_iff (h : (Json.obj e.streamMembers).encode.length < 256 ^ 4)
    (hcut : chunks.flatten = streamHeader e ++ payloads (tensors e)) (now : Decimal) :
    dst.Delivers e now chunks ↔ (e.totalSizeBytes : ℚ) ≤ dst.maxBytes ∧
      (∀ s ∈ e.shards, s.tensor ≠ some []) ∧
      ∀ j, EndsAt (skipBytes (streamHeader e).length chunks)
        (payloads ((tensors e).take j)).length := by
  have hbody : (skipBytes (streamHeader e).length chunks).flatten = payloads (tensors e) := by
    rw [flatten_skipBytes,hcut,List.drop_left]
  have hread := received_eq_iff.trans (readTensors_eq_iff hbody)
  have hempty : (∀ t ∈ tensors e, t ≠ some []) ↔ ∀ s ∈ e.shards, s.tensor ≠ some [] := by
    simp [tensors]
  rw [Delivers,receiveStream_header h hcut,← hempty,← hread]
  constructor
  · rintro ⟨hs,hget⟩
    exact ⟨(storeLocal_stored_iff (received e _)).mp hs,
      Option.some.inj ((storeLocal_get? hs).symm.trans hget)⟩
  · rintro ⟨hle,heq⟩
    rw [heq]
    have hs := (storeLocal_stored_iff e).mpr hle
    exact ⟨hs,storeLocal_get? hs⟩

theorem refuses_iff (h : (Json.obj e.streamMembers).encode.length < 256 ^ 4) {rest : Bytes}
    (hcut : chunks.flatten ++ rest = streamHeader e ++ payloads (tensors e)) (now : Decimal) :
    dst.Refuses now chunks ↔
      chunks.flatten.length < (streamHeader e).length ∨ dst.maxBytes < e.totalSizeBytes := by
  by_cases hshort : chunks.flatten.length < (streamHeader e).length
  · have htail : chunks.flatten ++ (streamHeader e).drop chunks.flatten.length = streamHeader e := by
      have htake := congrArg (List.take chunks.flatten.length) hcut
      rw [List.take_left,List.take_append_of_le_length hshort.le] at htake
      conv_lhs => lhs; rw [htake]
      exact List.take_append_drop _ _
    have hne : (streamHeader e).drop chunks.flatten.length ≠ [] := by
      rw [ne_eq,List.drop_eq_nil_iff]
      omega
    exact iff_of_true (receiveStream_short h htail hne now) (Or.inl hshort)
  · have hbody : chunks.flatten = streamHeader e ++ chunks.flatten.drop (streamHeader e).length := by
      have htake := congrArg (List.take (streamHeader e).length) hcut
      rw [List.take_left,List.take_append_of_le_length (not_lt.mp hshort)] at htake
      conv_lhs => rw [← List.take_append_drop (streamHeader e).length chunks.flatten,htake]
    rw [Refuses,receiveStream_header h hbody,or_iff_right hshort]
    constructor
    · intro hr
      by_contra hle
      have hs : (dst.storeLocal (received e (skipBytes (streamHeader e).length chunks))).2 = true :=
        (storeLocal_stored_iff _).mpr (not_lt.mp hle)
      rw [hr] at hs
      exact absurd hs (by simp)
    · intro hlarge
      unfold storeLocal
      exact if_pos hlarge

/-- An entry of shards with the given tensors, for runs on fixed inputs. -/
def tensorEntry (ts : List (Option Bytes)) : KVCacheEntry :=
  { cacheId := "c", modelName := "m", promptHash := "h", promptPrefix := ""
    shards := ts.map fun t => {
      shardId := "s", modelName := "m", layerIndex := 0, nodeId := "n", tokenCount := 1
      sizeBytes := 1, createdAt := .ofNat 0, tensor := t } }

def tensorExport (ts : List (Option Bytes)) : KVSharingManager × Option (List Bytes) :=
  ((create 1 true).storeLocal (tensorEntry ts)).1.exportStream (fun _ _ _ => none) "c" (.ofNat 0)

/-- A stream of `e` is taken in right exactly when `e` fits, has no empty tensor and each of
its tensors ends where a chunk ends; a part of it fails exactly when it ends inside the
header or `e` does not fit. -/
theorem stream_round_trip_iff {src : KVSharingManager} {transport : KVTransport} {id : String}
    {now : Decimal} {out : List Bytes} (hout : (src.exportStream transport id now).2 = some out)
    (he : (src.exportStream transport id now).1.localCache.get? id = some e)
    (dst : KVSharingManager) (later : Decimal) :
    (∀ chunks : List Bytes, chunks.flatten = out.flatten →
      (dst.Delivers e later chunks ↔ (e.totalSizeBytes : ℚ) ≤ dst.maxBytes ∧
        (∀ s ∈ e.shards, s.tensor ≠ some []) ∧
        ∀ j, EndsAt (skipBytes (headerLength out.flatten) chunks)
          (payloads ((tensors e).take j)).length)) ∧
    ∀ (chunks : List Bytes) (rest : Bytes), chunks.flatten ++ rest = out.flatten → rest ≠ [] →
      (dst.Refuses later chunks ↔ chunks.flatten.length < headerLength out.flatten ∨
        dst.maxBytes < e.totalSizeBytes) := by
  obtain ⟨hlen,hflat⟩ := exportStream_flatten hout he
  have hheader : headerLength out.flatten = (streamHeader e).length := by
    rw [hflat,fromBytes_header hlen]
  rw [hheader,hflat]
  exact ⟨fun chunks hcut => delivers_iff hlen hcut later,
    fun chunks rest hcut _ => refuses_iff hlen hcut later⟩

def tensorPair : KVCacheEntry :=
  { tensorEntry [some [1,2,3],some [4]] with totalSizeBytes := 2 }

/-- The header and each of the two tensors come in chunks of their own. -/
theorem stream_round_trip_two :
    let out := ((tensorExport [some [1,2,3],some [4]]).2.getD []).flatten
    (create 1 true).Delivers tensorPair (.ofNat 9) [out.take (headerLength out),[1,2,3],[4]] := by
  have hout : (tensorExport [some [1,2,3],some [4]]).2 =
      some ((tensorExport [some [1,2,3],some [4]]).2.getD []) := by decide +kernel
  have he : (tensorExport [some [1,2,3],some [4]]).1.localCache.get? "c" =
      some tensorPair := by decide +kernel
  refine ((stream_round_trip_iff hout he (create 1 true) (.ofNat 9)).1 _ (by decide +kernel)).mpr
    ⟨by decide +kernel,by decide +kernel,?_⟩
  intro j
  match j with
  | 0 => exact endsAt_zero _
  | 1 => decide +kernel
  | j+2 =>
    have htake : (tensors tensorPair).take (j+2) = tensors tensorPair :=
      List.take_of_length_le (by simp [tensors,tensorPair,tensorEntry])
    rw [htake]
    decide +kernel

theorem stream_loses_tensor : ¬∀ (src dst : KVSharingManager) (transport : KVTransport)
    (id : String) (now later : Decimal) (out : List Bytes) (e : KVCacheEntry),
    (src.exportStream transport id now).2 = some out →
    (src.exportStream transport id now).1.localCache.get? id = some e →
    (e.totalSizeBytes : ℚ) ≤ dst.maxBytes →
    (∀ chunks : List Bytes, chunks.flatten = out.flatten → dst.Delivers e later chunks) ∧
      ∀ (chunks : List Bytes) (rest : Bytes), chunks.flatten ++ rest = out.flatten → rest ≠ [] →
        dst.Refuses later chunks := by
  intro h
  have hout : (tensorExport [some [1],some [2]]).2 =
      some ((tensorExport [some [1],some [2]]).2.getD []) := by decide +kernel
  have he : (tensorExport [some [1],some [2]]).1.localCache.get? "c" =
      some { tensorEntry [some [1],some [2]] with totalSizeBytes := 2 } := by decide +kernel
  obtain ⟨hlen,hflat⟩ := exportStream_flatten hout he
  have hall := (h _ (create 1 true) _ _ _ (.ofNat 9) _ _ hout he (by decide +kernel)).1
    [((tensorExport [some [1],some [2]]).2.getD []).flatten] (by simp)
  have hends := ((delivers_iff hlen (by simpa using hflat) (.ofNat 9)).mp hall).2.2 1
  revert hends
  decide +kernel

end KVSharingManager
end FusionMultiNodes

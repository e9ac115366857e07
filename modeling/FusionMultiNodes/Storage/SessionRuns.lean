import FusionMultiNodes.Storage.SessionStore

/-! Runs of the session store: its files are the sessions that callers rely on, as long as no
fork meets a session of its id and no put fails behind its write. -/
namespace FusionMultiNodes

theorem sessionFile_eq_some {id name : String} (h : sessionFile id = some name) :
    name = id ++ ".json" := by
  unfold sessionFile at h
  dsimp only at h
  split_ifs at h
  exact (Option.some.inj h).symm

theorem sessionFile_of_isSome {id : String} (h : (sessionFile id).isSome = true) :
    sessionFile id = some (id ++ ".json") := by
  obtain ⟨name,hname⟩ := Option.isSome_iff_exists.mp h
  rw [hname,sessionFile_eq_some hname]

theorem append_right_inj_iff {a b c : String} : a ++ c = b ++ c ↔ a = b := by
  rw [← String.toList_inj,String.toList_append,String.toList_append,List.append_left_inj,
    String.toList_inj]

theorem json_suffix (id : String) : (".json".toList).isSuffixOf (id ++ ".json").toList = true := by
  rw [String.toList_append,List.isSuffixOf_iff_suffix]
  exact List.suffix_append ..

theorem not_json_suffix_temp (name : String) :
    (".json".toList).isSuffixOf (tempFile name).toList = false := by
  rw [Bool.eq_false_iff,ne_eq,List.isSuffixOf_iff_suffix]
  rintro ⟨front,hfront⟩
  have hlast := congrArg List.getLast? hfront
  rw [tempFile,String.toList_append,List.getLast?_append,List.getLast?_append] at hlast
  have hchars : some 'n' = some 'p' := hlast
  exact absurd hchars (by decide)

theorem ne_tempFile (id name : String) : id ++ ".json" ≠ tempFile name := by
  intro h
  have hsuffix := json_suffix id
  rw [h,not_json_suffix_temp] at hsuffix
  exact absurd hsuffix (by decide)

theorem files_apart {id id' name name' : String} (h : sessionFile id = some name)
    (h' : sessionFile id' = some name') (hne : id ≠ id') :
    name ≠ name' ∧ name ≠ tempFile name' ∧ tempFile name ≠ tempFile name' := by
  obtain rfl := sessionFile_eq_some h
  obtain rfl := sessionFile_eq_some h'
  refine ⟨fun heq => hne (append_right_inj_iff.mp heq),ne_tempFile _ _,fun heq => ?_⟩
  exact hne (append_right_inj_iff.mp (append_right_inj_iff.mp heq))

theorem Json.ofDict_inj {d d' : JsonDict} (h : Json.ofDict d = Json.ofDict d') : d = d' :=
  Dict.ext_entries (Json.obj.inj h)

namespace SessionStore

variable {py : PyText} {s : SessionStore}

theorem payloadOf_spec {session : JsonDict} {now : Decimal} {r : String × JsonDict}
    (h : payloadOf py session now = some r) :
    (sessionFile r.1).isSome = true ∧ ∃ t, r.2.get? "updated_at" = some (.float t) := by
  unfold payloadOf at h
  obtain ⟨name,hname,h⟩ := Option.bind_eq_some_iff.mp h
  obtain ⟨updated,-,h⟩ := Option.bind_eq_some_iff.mp h
  obtain rfl := Option.some.inj h
  exact ⟨Option.isSome_iff_exists.mpr ⟨name,hname⟩,_,Dict.get?_set_self ..⟩

theorem putSession_none {session : JsonDict} {now : Decimal} (outcome : PutOutcome)
    (h : payloadOf py session now = none) : s.putSession py session now outcome = (s,none) := by
  simp only [putSession,h]

theorem putSession_some {session : JsonDict} {now : Decimal} (outcome : PutOutcome)
    {r : String × JsonDict} (h : payloadOf py session now = some r) :
    s.putSession py session now outcome =
      (s.writeFile (r.1 ++ ".json") (Json.ofDict r.2).encode outcome,
        if outcome = .done ∧ sized r.2 = true then some r else none) := by
  simp only [putSession,h]

theorem putSession_returns {session : JsonDict} {now : Decimal} {outcome : PutOutcome}
    {r : String × JsonDict} (h : (s.putSession py session now outcome).2 = some r) :
    outcome = .done ∧ payloadOf py session now = some r := by
  cases hp : payloadOf py session now with
  | none =>
    rw [putSession_none outcome hp] at h
    cases h
  | some r' =>
    rw [putSession_some outcome hp] at h
    obtain ⟨hdone,hr⟩ := Option.ite_none_right_eq_some.mp h
    exact ⟨hdone.1,congrArg some (Option.some.inj hr)⟩

end SessionStore

namespace SessionWorld

variable {py : PyText} {w : SessionWorld}

structure Faithful (w : SessionWorld) : Prop where
  accepted : ∀ id x, w.last.get? id = some x → (sessionFile id).isSome = true
  stored : ∀ id, (sessionFile id).isSome = true → w.store.files.get? (id ++ ".json") =
    (w.last.get? id).map fun x => (Json.ofDict x).encode
  named : ∀ name b, w.store.files.get? name = some b →
    (".json".toList).isSuffixOf name.toList = true →
      ∃ id, (sessionFile id).isSome = true ∧ name = id ++ ".json"
  timed : ∀ id x, w.last.get? id = some x → ∃ t, x.get? "updated_at" = some (.float t)
  sized : ∀ id x, w.last.get? id = some x → SessionStore.sized x = true

theorem faithful_create : create.Faithful where
  accepted := fun _ _ h => absurd h (by simp [create])
  stored := fun _ _ => rfl
  named := fun _ _ h => absurd h (by simp [create])
  timed := fun _ _ h => absurd h (by simp [create])
  sized := fun _ _ h => absurd h (by simp [create])

theorem Faithful.gets (h : w.Faithful) {id : String} (hid : (sessionFile id).isSome = true) :
    w.store.getSession id = (w.last.get? id).map Json.ofDict := by
  rw [SessionStore.getSession,sessionFile_of_isSome hid,Option.bind_some,h.stored id hid]
  cases w.last.get? id with
  | none => rfl
  | some x => exact Json.decode_encode (Json.ofDict x)

theorem Faithful.temp (h : w.Faithful) (name : String) (b : Bytes) :
    Faithful ⟨⟨w.store.files.set (tempFile name) b⟩,w.last⟩ where
  accepted := h.accepted
  stored := by
    intro id hid
    rw [Dict.get?_set_ne _ _ (ne_tempFile id name)]
    exact h.stored id hid
  named := by
    intro name' b' hb hsuffix
    rw [Dict.get?_set] at hb
    split_ifs at hb with heq
    · rw [heq,not_json_suffix_temp] at hsuffix
      exact absurd hsuffix (by decide)
    · exact h.named name' b' hb hsuffix
  timed := h.timed
  sized := h.sized

theorem Faithful.place (h : w.Faithful) {r : String × JsonDict}
    (hid : (sessionFile r.1).isSome = true) (htime : ∃ t, r.2.get? "updated_at" = some (.float t))
    (hsized : SessionStore.sized r.2 = true) :
    Faithful ⟨w.store.writeFile (r.1 ++ ".json") (Json.ofDict r.2).encode .done,
      w.last.set r.1 r.2⟩ where
  accepted := by
    intro id x hx
    rw [Dict.get?_set] at hx
    split_ifs at hx with heq
    · exact heq ▸ hid
    · exact h.accepted id x hx
  stored := by
    intro id hacc
    simp only [SessionStore.writeFile,Dict.get?_set,Dict.get?_erase,if_neg (ne_tempFile id _),
      append_right_inj_iff]
    split_ifs with heq
    · rfl
    · exact h.stored id hacc
  named := by
    intro name b hb hsuffix
    simp only [SessionStore.writeFile,Dict.get?_set,Dict.get?_erase] at hb
    split_ifs at hb with heq htemp
    · exact ⟨r.1,hid,heq⟩
    · exact h.named name b hb hsuffix
  timed := by
    intro id x hx
    rw [Dict.get?_set] at hx
    split_ifs at hx with heq
    · exact Option.some.inj hx ▸ htime
    · exact h.timed id x hx
  sized := by
    intro id x hx
    rw [Dict.get?_set] at hx
    split_ifs at hx with heq
    · exact Option.some.inj hx ▸ hsized
    · exact h.sized id x hx

theorem Faithful.delete (h : w.Faithful) (id : String) : (w.step py (.delete id)).Faithful := by
  cases hfile : sessionFile id with
  | none =>
    have hsame : w.step py (.delete id) = w := by simp [step,SessionStore.deleteSession,hfile]
    rwa [hsame]
  | some name =>
    obtain rfl := sessionFile_eq_some hfile
    by_cases hthere : w.store.files.contains (id ++ ".json") = true
    · have hstep : w.step py (.delete id) =
          ⟨⟨w.store.files.erase (id ++ ".json")⟩,w.last.erase id⟩ := by
        simp [step,SessionStore.deleteSession,hfile,hthere]
      have hback : ∀ id' x, (w.last.erase id).get? id' = some x → w.last.get? id' = some x := by
        intro id' x hx
        rw [Dict.get?_erase] at hx
        split_ifs at hx
        exact hx
      rw [hstep]
      constructor
      · exact fun id' x hx => h.accepted id' x (hback id' x hx)
      · intro id' hid'
        simp only [Dict.get?_erase,append_right_inj_iff]
        split_ifs with heq
        · rfl
        · exact h.stored id' hid'
      · intro name b hb hsuffix
        rw [Dict.get?_erase] at hb
        split_ifs at hb
        exact h.named name b hb hsuffix
      · exact fun id' x hx => h.timed id' x (hback id' x hx)
      · exact fun id' x hx => h.sized id' x (hback id' x hx)
    · have hsame : w.step py (.delete id) = w := by
        simp [step,SessionStore.deleteSession,hfile,hthere]
      rwa [hsame]

theorem mapM_total {α β : Type} {f : α → Option β} {l : List α} (h : ∀ a ∈ l, ∃ b, f a = some b) :
    ∃ bs, l.mapM f = some bs ∧ ∀ a ∈ l, ∀ b, f a = some b → b ∈ bs := by
  induction l with
  | nil => exact ⟨[],rfl,by simp⟩
  | cons a l ih =>
    obtain ⟨b,hb⟩ := h a (List.mem_cons_self ..)
    obtain ⟨bs,hbs,hmem⟩ := ih fun x hx => h x (List.mem_cons_of_mem _ hx)
    refine ⟨b::bs,by simp [hb,hbs],?_⟩
    intro x hx y hy
    rcases List.mem_cons.mp hx with rfl | hx
    · rw [hb] at hy
      exact Option.some.inj hy ▸ List.mem_cons_self ..
    · exact List.mem_cons_of_mem _ (hmem x hx y hy)

variable (py) in
theorem rowOf_timed {x : JsonDict} (h : ∃ t, x.get? "updated_at" = some (.float t)) :
    ∃ t, SessionStore.rowOf py (Json.ofDict x) = some (t,x.erase "messages") := by
  obtain ⟨t,ht⟩ := h
  have hrow : (x.erase "messages").get? "updated_at" = some (.float t) := by
    rw [Dict.get?_erase,if_neg (by decide),ht]
  simp only [SessionStore.rowOf,Json.ofDict,dictOf_entries,hrow,orElse]
  split_ifs
  · exact ⟨t,rfl⟩
  · exact ⟨_,rfl⟩

theorem Faithful.lists (h : w.Faithful) : ∃ enough : ℤ, ∀ limit, enough ≤ limit → ∃ rows,
    w.store.listSessions py limit = some rows ∧
      ∀ id x, w.last.get? id = some x → x.erase "messages" ∈ rows := by
  let names := w.store.files.keys.filter fun name => (".json".toList).isSuffixOf name.toList
  let docs := names.filterMap fun name => (w.store.files.get? name).bind Json.decode
  have hdocs : ∀ doc ∈ docs, ∃ row, SessionStore.rowOf py doc = some row := by
    intro doc hdoc
    obtain ⟨name,hname,hread⟩ := List.mem_filterMap.mp hdoc
    obtain ⟨b,hb,hdecode⟩ := Option.bind_eq_some_iff.mp hread
    obtain ⟨id,hid,rfl⟩ := h.named name b hb (List.mem_filter.mp hname).2
    rw [h.stored id hid] at hb
    obtain ⟨x,hx,rfl⟩ := Option.map_eq_some_iff.mp hb
    rw [Json.decode_encode] at hdecode
    obtain rfl := Option.some.inj hdecode
    obtain ⟨t,ht⟩ := rowOf_timed py (h.timed id x hx)
    exact ⟨_,ht⟩
  obtain ⟨keyed,hkeyed,hmem⟩ := mapM_total hdocs
  refine ⟨keyed.length,fun limit hlimit =>
    ⟨((keyed.mergeSort fun a b => decide (b.1.value ≤ a.1.value)).map Prod.snd).take limit.toNat,
      ?_,?_⟩⟩
  · simp only [SessionStore.listSessions]
    exact congrArg (fun o => o.bind fun keyed => some (((keyed.mergeSort fun a b =>
      decide (b.1.value ≤ a.1.value)).map Prod.snd).take limit.toNat)) hkeyed
  · intro id x hx
    have hid := h.accepted id x hx
    have hfile := h.stored id hid
    rw [hx,Option.map_some] at hfile
    obtain ⟨t,ht⟩ := rowOf_timed py (h.timed id x hx)
    have hdoc : Json.ofDict x ∈ docs := by
      apply List.mem_filterMap.mpr
      refine ⟨id ++ ".json",List.mem_filter.mpr ⟨Dict.mem_keys_iff.mpr ⟨_,hfile⟩,json_suffix id⟩,?_⟩
      rw [hfile,Option.bind_some,Json.decode_encode]
    have hrow := hmem _ hdoc _ ht
    rw [List.take_of_length_le (by simp; omega)]
    apply List.mem_map.mpr
    exact ⟨_,(List.mergeSort_perm _ _).mem_iff.mpr hrow,rfl⟩

theorem Faithful.put (h : w.Faithful) {session : JsonDict} {now : Decimal} {outcome : PutOutcome}
    (hsized : outcome = .done → ∀ r, SessionStore.payloadOf py session now = some r →
      SessionStore.sized r.2 = true) :
    (w.note (w.store.putSession py session now outcome)).Faithful := by
  cases hp : SessionStore.payloadOf py session now with
  | none =>
    rw [SessionStore.putSession_none outcome hp]
    exact h
  | some r =>
    rw [SessionStore.putSession_some outcome hp]
    cases outcome with
    | torn n => exact h.temp (r.1 ++ ".json") _
    | unmoved => exact h.temp (r.1 ++ ".json") _
    | done =>
      obtain ⟨hid,htime⟩ := SessionStore.payloadOf_spec hp
      have hlength := hsized rfl r hp
      rw [if_pos ⟨rfl,hlength⟩]
      exact h.place hid htime hlength

theorem Faithful.sized_of_gets (h : w.Faithful) {session : JsonDict} {now : Decimal}
    {r : String × JsonDict} (hp : SessionStore.payloadOf py session now = some r)
    (hgets : ∀ id, (sessionFile id).isSome = true →
      (w.note (w.store.putSession py session now .done)).store.getSession id =
        ((w.note (w.store.putSession py session now .done)).last.get? id).map Json.ofDict) :
    SessionStore.sized r.2 = true := by
  by_contra hnot
  have hid := (SessionStore.payloadOf_spec hp).1
  have hget := hgets r.1 hid
  rw [SessionStore.putSession_some .done hp,if_neg fun hc => hnot hc.2] at hget
  have hfile : (w.store.writeFile (r.1 ++ ".json") (Json.ofDict r.2).encode .done).getSession r.1 =
      some (Json.ofDict r.2) := by
    rw [SessionStore.getSession,sessionFile_of_isSome hid,Option.bind_some]
    simp only [SessionStore.writeFile,Dict.get?_set_self,Option.bind_some,Json.decode_encode]
  obtain ⟨x,hx,hxr⟩ := Option.map_eq_some_iff.mp (hget.symm.trans hfile)
  exact hnot (Json.ofDict_inj hxr ▸ h.sized r.1 x hx)

/-- A fork either puts nothing or is the put of the forked session. -/
theorem forkSession_eq (w : SessionWorld) (id title : String) (ms : ℕ) (now : Decimal)
    (outcome : PutOutcome) : w.store.forkSession py id title ms now outcome =
      match w.store.forked py id title ms with
      | some session => w.store.putSession py session now outcome
      | none => (w.store,none) := rfl

theorem Faithful.step (h : w.Faithful) {ev : SessionEvent} (hkeeps : w.Keeps py ev) :
    (w.step py ev).Faithful := by
  cases ev with
  | put session now outcome => exact h.put hkeeps
  | get id => exact h
  | delete id => exact h.delete id
  | fork id title ms now outcome =>
    rw [SessionWorld.step,forkSession_eq]
    cases hfork : w.store.forked py id title ms with
    | none => exact h
    | some session => exact h.put fun hdone r hr => (hkeeps hdone session hfork r hr).1

theorem isolated_iff (h : w.Faithful) (ev : SessionEvent) :
    w.Isolated py ev (w.step py ev) ↔ w.Keeps py ev := by
  constructor
  · intro hiso
    cases ev with
    | put session now outcome =>
      rintro rfl r hr
      exact h.sized_of_gets hr hiso.gets
    | get id => trivial
    | delete id => trivial
    | fork id title ms now outcome =>
      rintro rfl session hfork r hr
      have hput : w.store.forkSession py id title ms now .done =
          w.store.putSession py session now .done := by rw [forkSession_eq,hfork]
      have hgets := hiso.gets
      rw [SessionWorld.step,hput] at hgets
      have hsized := h.sized_of_gets hr hgets
      refine ⟨hsized,?_⟩
      have hresult : (w.store.forkSession py id title ms now .done).2 = some r := by
        rw [hput,SessionStore.putSession_some .done hr]
        exact if_pos ⟨rfl,hsized⟩
      have hnone := hiso.forks id title ms now .done rfl r hresult
      rw [h.stored r.1 (SessionStore.payloadOf_spec hr).1,hnone]
      rfl
  · intro hkeeps
    have hnext := h.step hkeeps
    refine ⟨fun id hid => hnext.gets hid,hnext.lists,?_⟩
    rintro id title ms now outcome rfl r hr
    rw [forkSession_eq] at hr
    cases hfork : w.store.forked py id title ms with
    | none =>
      rw [hfork] at hr
      cases hr
    | some session =>
      rw [hfork] at hr
      obtain ⟨hdone,hpayload⟩ := SessionStore.putSession_returns hr
      have hfile := (hkeeps hdone session hfork r hpayload).2
      rw [h.stored r.1 (SessionStore.payloadOf_spec hpayload).1] at hfile
      exact Option.map_eq_none_iff.mp hfile

/-- Distinct ids never share a file, and the sessions are isolated along a run if and only if
every put into place has messages with a length and every fork finds its id free. -/
theorem sessions_isolated_iff (py : PyText) (es : List SessionEvent) :
    (∀ id id' name name', sessionFile id = some name → sessionFile id' = some name' → id ≠ id' →
      name ≠ name' ∧ name ≠ tempFile name' ∧ tempFile name ≠ tempFile name') ∧
    ((machine py).Along (Isolated py) create es ↔
      (machine py).Along (fun w ev _ => w.Keeps py ev) create es) := by
  refine ⟨fun _ _ _ _ => files_apart,?_⟩
  apply Machine.along_congr_of_invariant (I := Faithful)
  · intro w ev w' hw hstep
    obtain rfl := Option.some.inj hstep
    exact isolated_iff hw ev
  · intro w ev w' hw hstep hkeeps
    obtain rfl := Option.some.inj hstep
    exact hw.step hkeeps
  · exact faithful_create

/-- A store with one session and a fork of it, for runs on fixed inputs. -/
def forkedOnce (py : PyText) : SessionWorld :=
  (create.step py (.put (dictOf [("id",.str "a")]) (.ofNat 1) .done)).step py
    (.fork "a" "" 5 (.ofNat 1) .done)

theorem forks_collide : ¬∀ (py : PyText) (es : List SessionEvent),
    (machine py).Along (Isolated py) create es := by
  intro h
  have hrun := h ⟨fun _ => "",fun _ => none⟩ [.put (dictOf [("id",.str "a")]) (.ofNat 1) .done,
    .fork "a" "" 5 (.ofNat 1) .done,.fork "a" "b" 5 (.ofNat 1) .done]
  have hthird := ((((hrun _ rfl).2 _ rfl).2 _ rfl).1).forks "a" "b" 5 (.ofNat 1) .done rfl
  have htaken : (((forkedOnce ⟨fun _ => "",fun _ => none⟩).store.forkSession
      ⟨fun _ => "",fun _ => none⟩ "a" "b" 5 (.ofNat 1) .done).2.any fun r =>
      ((forkedOnce ⟨fun _ => "",fun _ => none⟩).last.get? r.1).isSome) = true := by
    decide +kernel
  obtain ⟨r,hr,hsome⟩ := (Option.any_eq_true _ _).mp htaken
  have hnone := hthird r hr
  change (forkedOnce ⟨fun _ => "",fun _ => none⟩).last.get? r.1 = none at hnone
  rw [hnone] at hsome
  exact absurd hsome (by decide)

end SessionWorld
end FusionMultiNodes

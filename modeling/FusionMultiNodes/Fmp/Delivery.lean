import FusionMultiNodes.Fmp.Server

/-! What a connection delivers. A loop that drops the coroutine of its callback hands on
nothing; a timeout between the length field and the body loses the frame boundary, and nothing
else does. -/
namespace FusionMultiNodes
namespace InboundPeer

variable {srv : FMPServer} {callback : Callback} {frames done : List (FMPFrame srv)}
  {p q : InboundPeer}

theorem wire_cons (f : FMPFrame srv) (rest : List (FMPFrame srv)) :
    wire (f::rest) = bigEndian 4 f.body.length ++ (f.body ++ wire rest) := by
  simp [wire]

theorem wire_append (a b : List (FMPFrame srv)) : wire (a ++ b) = wire a ++ wire b := by
  simp [wire]

theorem wire_eq_nil_iff {rest : List (FMPFrame srv)} (h : (wire rest).length < 4) : rest = [] := by
  cases rest with
  | nil => rfl
  | cons f rest =>
    rw [wire_cons,List.length_append,length_bigEndian] at h
    omega

/-- The loop has read off `done`, and stands at the front or behind the length field of the
next frame. -/
inductive At (frames : List (FMPFrame srv)) (p : InboundPeer) (done : List (FMPFrame srv)) : Prop
  | header (rest : List (FMPFrame srv)) (split : frames = done ++ rest)
    (awaits : p.awaited = .header) (left : p.buffer ++ p.inFlight = wire rest)
  | body (f : FMPFrame srv) (rest : List (FMPFrame srv)) (split : frames = done ++ f::rest)
    (awaits : p.awaited = .body f.body.length) (left : p.buffer ++ p.inFlight = f.body ++ wire rest)

/-- The loop stands at a frame boundary, or behind the length field of a frame whose body it
waits for. -/
def Aligned (frames : List (FMPFrame srv)) (p : InboundPeer) : Prop := ∃ done, At frames p done

theorem aligned_connect (frames : List (FMPFrame srv)) : At frames (connect frames) [] :=
  .header frames rfl rfl rfl

theorem At.congr (h : At frames p done) (hawaited : q.awaited = p.awaited)
    (hleft : q.buffer ++ q.inFlight = p.buffer ++ p.inFlight) : At frames q done := by
  cases h with
  | header rest split awaits left =>
    exact .header rest split (hawaited.trans awaits) (hleft.trans left)
  | body f rest split awaits left =>
    exact .body f rest split (hawaited.trans awaits) (hleft.trans left)

/-- A timeout behind a length field: the body will be read as a length. -/
theorem At.not_aligned_of_timeout (h : At frames p done) (hbody : p.awaited ≠ .header) :
    ¬Aligned frames { p with awaited := .header } := by
  cases h with
  | header rest split awaits left => exact absurd awaits hbody
  | body f rest split awaits left =>
    rintro ⟨done',hat⟩
    cases hat with
    | body f' rest' split' awaits' left' => exact absurd awaits' (by simp)
    | header rest' split' awaits' left' =>
      -- the bytes left lie strictly between two frame boundaries
      have hlen : f.body.length + (wire rest).length = (wire rest').length := by
        rw [← List.length_append,← left,← left']
      have hpos := f.positive
      rcases List.append_eq_append_iff.mp (split.symm.trans split') with
        ⟨x,hx,hrest⟩ | ⟨x,hx,hrest⟩
      · cases x with
        | nil =>
          have hfront : rest' = f::rest := by simpa using hrest.symm
          rw [hfront,wire_cons] at hlen
          simp only [List.length_append,length_bigEndian] at hlen
          omega
        | cons g x =>
          rw [List.cons_append] at hrest
          obtain ⟨rfl,rfl⟩ := List.cons.inj hrest
          rw [wire_append,List.length_append] at hlen
          omega
      · rw [hrest,wire_append,wire_cons] at hlen
        simp only [List.length_append,length_bigEndian] at hlen
        omega

theorem fromBytes_length (f : FMPFrame srv) :
    fromBytes (bigEndian 4 f.body.length) = f.body.length := by
  apply fromBytes_bigEndian
  have := f.bounded
  unfold maxFrameLength at this
  omega

@[simp] theorem onMessage_awaited (p : InboundPeer) (msg : FMPMessage) :
    (p.onMessage callback msg).awaited = p.awaited := by
  cases callback <;> rfl

@[simp] theorem onMessage_alive (p : InboundPeer) (msg : FMPMessage) :
    (p.onMessage callback msg).alive = p.alive := by
  cases callback <;> rfl

@[simp] theorem onMessage_handed (p : InboundPeer) (msg : FMPMessage) :
    (p.onMessage callback msg).handed = p.handed := by
  cases callback <;> rfl

theorem onMessage_left (callback : Callback) (p : InboundPeer) (msg : FMPMessage) :
    (p.onMessage callback msg).buffer = p.buffer ∧
      (p.onMessage callback msg).inFlight = p.inFlight := by
  cases callback <;> exact ⟨rfl,rfl⟩

/-- From an aligned state, a read takes a length field or the body of a frame. -/
theorem At.read (h : At frames p done) (hs : p.step srv callback .read = some q) :
    p.alive = true ∧ ((∃ n, q = { p with buffer := p.buffer.drop 4, awaited := .body n } ∧
        At frames q done) ∨
      ∃ f, q = { p with buffer := p.buffer.drop f.body.length, awaited := .header }.onMessage
        callback f.message ∧ At frames q (done ++ [f])) := by
  rw [step] at hs
  obtain ⟨⟨halive,hlen⟩,hq⟩ := Option.ite_none_right_eq_some.mp hs
  refine ⟨halive,?_⟩
  cases h with
  | header rest split awaits left =>
    left
    have hneeded : p.needed = 4 := by rw [needed,awaits]
    rw [hneeded] at hlen hq
    cases rest with
    | nil =>
      have hnil := (List.append_eq_nil_iff.mp left).1
      rw [hnil] at hlen
      exact absurd hlen (by decide)
    | cons f rest =>
      have htake := congrArg (List.take 4) left
      have hdrop := congrArg (List.drop 4) left
      rw [wire_cons] at htake hdrop
      rw [List.take_append_of_le_length hlen,List.take_left' (length_bigEndian ..)] at htake
      rw [List.drop_append_of_le_length hlen,List.drop_left' (length_bigEndian ..)] at hdrop
      have hok : ¬(f.body.length ≤ 0 ∨ maxFrameLength < f.body.length) := by
        have hpos := f.positive
        have hbound := f.bounded
        omega
      simp only [complete,awaits,htake,fromBytes_length,if_neg hok,Option.some.injEq] at hq
      subst hq
      exact ⟨f.body.length,rfl,.body f rest split rfl hdrop⟩
  | body f rest split awaits left =>
    right
    have hneeded : p.needed = f.body.length := by rw [needed,awaits]
    rw [hneeded] at hlen hq
    have htake := congrArg (List.take f.body.length) left
    have hdrop := congrArg (List.drop f.body.length) left
    rw [List.take_append_of_le_length hlen,List.take_left] at htake
    rw [List.drop_append_of_le_length hlen,List.drop_left] at hdrop
    simp only [complete,awaits,htake,f.receives,Option.some.injEq] at hq
    subst hq
    refine ⟨f,rfl,.header rest (by simpa using split) (by simp) ?_⟩
    obtain ⟨hbuffer,hflight⟩ := onMessage_left callback
      { p with buffer := p.buffer.drop f.body.length, awaited := .header } f.message
    rw [hbuffer,hflight]
    exact hdrop

/-- An aligned loop that finds the stream at its end has read all frames. -/
theorem At.finished (h : At frames p done) (hflight : p.inFlight = [])
    (hlen : p.buffer.length < p.needed) : p.buffer = [] ∧ frames = done := by
  cases h with
  | header rest split awaits left =>
    rw [needed,awaits] at hlen
    rw [hflight,List.append_nil] at left
    have hrest : rest = [] := wire_eq_nil_iff (by rwa [← left])
    rw [hrest] at left split
    exact ⟨left,by simpa using split⟩
  | body f rest split awaits left =>
    rw [needed,awaits] at hlen
    rw [hflight,List.append_nil] at left
    rw [left,List.length_append] at hlen
    simp at hlen

/-- The condition: no timeout falls between a length field and its body. -/
def TimesOutBetween (p : InboundPeer) (ev : InboundEvent) (_ : InboundPeer) : Prop :=
  ev = .timeout → p.awaited = .header

theorem dispatch_at (h : At frames p done) (msg : FMPMessage) (rest : List FMPMessage) :
    At frames ({ p with tasks := rest }.dispatch srv msg) done := by
  unfold dispatch
  split_ifs
  · exact h.congr rfl rfl
  · exact h.congr rfl rfl

/-- A step keeps the alignment exactly when it does not time out on a body. -/
theorem step_aligned_iff (h : Aligned frames p) {ev : InboundEvent}
    (hs : p.step srv callback ev = some q) : Aligned frames q ↔ TimesOutBetween p ev q := by
  obtain ⟨done,hat⟩ := h
  cases ev with
  | arrive n =>
    obtain rfl := Option.some.inj hs
    refine iff_of_true ⟨done,hat.congr rfl ?_⟩ (by simp [TimesOutBetween])
    rw [List.append_assoc,List.take_append_drop]
  | read =>
    refine iff_of_true ?_ (by simp [TimesOutBetween])
    obtain ⟨-,⟨n,-,hq⟩ | ⟨f,-,hq⟩⟩ := hat.read hs
    · exact ⟨done,hq⟩
    · exact ⟨done ++ [f],hq⟩
  | timeout =>
    obtain ⟨-,hq⟩ := Option.ite_none_right_eq_some.mp hs
    obtain rfl := Option.some.inj hq
    constructor
    · intro hq _
      by_contra hbody
      exact hat.not_aligned_of_timeout hbody hq
    · intro hwait
      exact ⟨done,hat.congr (hwait rfl).symm rfl⟩
  | eof =>
    obtain ⟨⟨-,hflight,hlen⟩,hq⟩ := Option.ite_none_right_eq_some.mp hs
    obtain rfl := Option.some.inj hq
    refine iff_of_true ⟨done,hat.congr rfl ?_⟩ (by simp [TimesOutBetween])
    rw [(hat.finished hflight hlen).1]
  | runTask =>
    refine iff_of_true ?_ (by simp [TimesOutBetween])
    rw [step] at hs
    split at hs
    · simp at hs
    · obtain rfl := Option.some.inj hs
      exact ⟨done,dispatch_at hat _ _⟩

/-- A loop that drops the coroutines runs no dispatch, whatever it reads. -/
theorem step_dropped {ev : InboundEvent} (htasks : p.tasks = []) (hhanded : p.handed = [])
    (hs : p.step srv .dropped ev = some q) : q.tasks = [] ∧ q.handed = [] := by
  cases ev with
  | arrive n =>
    obtain rfl := Option.some.inj hs
    exact ⟨htasks,hhanded⟩
  | read =>
    obtain ⟨-,hq⟩ := Option.ite_none_right_eq_some.mp hs
    obtain rfl := Option.some.inj hq
    unfold complete
    split
    · dsimp only
      split_ifs <;> exact ⟨htasks,hhanded⟩
    · split <;> exact ⟨htasks,hhanded⟩
  | timeout =>
    obtain ⟨-,hq⟩ := Option.ite_none_right_eq_some.mp hs
    obtain rfl := Option.some.inj hq
    exact ⟨htasks,hhanded⟩
  | eof =>
    obtain ⟨-,hq⟩ := Option.ite_none_right_eq_some.mp hs
    obtain rfl := Option.some.inj hq
    exact ⟨htasks,hhanded⟩
  | runTask =>
    rw [step,htasks] at hs
    simp at hs

theorem handed_of_dropped {G : InboundPeer → InboundEvent → Prop}
    (h : (machine srv .dropped).Reaches G (connect frames) p) : p.handed = [] := by
  have hboth : p.tasks = [] ∧ p.handed = [] := by
    apply h.invariant (I := fun p => p.tasks = [] ∧ p.handed = []) _ ⟨rfl,rfl⟩
    intro s ev t hs _ ht
    exact step_dropped hs.1 hs.2 ht
  exact hboth.2

theorem along_aligned_iff (frames : List (FMPFrame srv)) (es : List InboundEvent) :
    (machine srv callback).Along (fun _ _ q => Aligned frames q) (connect frames) es ↔
      (machine srv callback).Along TimesOutBetween (connect frames) es := by
  apply Machine.along_congr_of_invariant (I := Aligned frames)
  · intro s ev t hs ht
    exact step_aligned_iff hs ht
  · intro s ev t hs ht hw
    exact (step_aligned_iff hs ht).mpr hw
  · exact ⟨[],aligned_connect frames⟩

structure Tracks (frames : List (FMPFrame srv)) (p : InboundPeer) (done : List (FMPFrame srv)) :
    Prop where
  position : At frames p done
  handed : p.handed ++ p.tasks.filter (fun m => srv.handles m.business.payloadType) = wanted done
  ended : p.alive = false → frames = done

theorem wanted_append (done : List (FMPFrame srv)) (f : FMPFrame srv) :
    wanted (done ++ [f]) = wanted done ++
      [f.message].filter fun m => srv.handles m.business.payloadType := by
  simp [wanted]

theorem step_tracks (h : Tracks frames p done) {ev : InboundEvent}
    (hs : p.step srv .scheduled ev = some q) (hw : TimesOutBetween p ev q) :
    ∃ done', Tracks frames q done' := by
  cases ev with
  | arrive n =>
    obtain rfl := Option.some.inj hs
    refine ⟨done,h.position.congr rfl ?_,h.handed,h.ended⟩
    rw [List.append_assoc,List.take_append_drop]
  | read =>
    obtain ⟨halive,⟨n,rfl,hat⟩ | ⟨f,rfl,hat⟩⟩ := h.position.read hs
    · exact ⟨done,hat,h.handed,h.ended⟩
    · refine ⟨done ++ [f],hat,?_,?_⟩
      · rw [wanted_append,← h.handed,List.append_assoc,← List.filter_append]
        rfl
      · intro hdead
        rw [onMessage_alive,halive] at hdead
        simp at hdead
  | timeout =>
    obtain ⟨-,hq⟩ := Option.ite_none_right_eq_some.mp hs
    obtain rfl := Option.some.inj hq
    exact ⟨done,h.position.congr (hw rfl).symm rfl,h.handed,h.ended⟩
  | eof =>
    obtain ⟨⟨-,hflight,hlen⟩,hq⟩ := Option.ite_none_right_eq_some.mp hs
    obtain rfl := Option.some.inj hq
    obtain ⟨hbuffer,hall⟩ := h.position.finished hflight hlen
    refine ⟨done,h.position.congr rfl ?_,h.handed,fun _ => hall⟩
    rw [hbuffer]
  | runTask =>
    rw [step] at hs
    split at hs
    · simp at hs
    · rename_i msg rest htasks
      obtain rfl := Option.some.inj hs
      have hhanded := h.handed
      rw [htasks] at hhanded
      refine ⟨done,dispatch_at h.position msg rest,?_,?_⟩
      · by_cases hmsg : srv.handles msg.business.payloadType = true
        · rw [dispatch,if_pos hmsg]
          simpa [hmsg] using hhanded
        · rw [dispatch,if_neg hmsg]
          simpa [hmsg] using hhanded
      · intro hdead
        apply h.ended
        unfold dispatch at hdead
        split_ifs at hdead <;> exact hdead

/-- The loop of an outgoing connection hands on every frame once and in order. -/
theorem connection_delivery {G : InboundPeer → InboundEvent → Prop}
    (hG : ∀ p ev, G p ev → ev = .timeout → p.awaited = .header)
    (h : (machine srv .scheduled).Reaches G (connect frames) p)
    (hsettled : p.Settled srv .scheduled) : p.handed = wanted frames := by
  have htracks : ∃ done, Tracks frames p done := by
    apply h.invariant (I := fun p => ∃ done, Tracks frames p done)
    · rintro s ev t ⟨done,hs⟩ hg ht
      exact step_tracks hs ht (hG s ev hg)
    · exact ⟨[],aligned_connect frames,rfl,fun hdead => by simp [connect] at hdead⟩
  obtain ⟨done,hp⟩ := htracks
  obtain ⟨hflight,hidle,htasks⟩ := hsettled
  have hall : frames = done := by
    by_cases halive : p.alive = true
    · apply (hp.position.finished hflight _).2
      by_contra hlen
      rw [step,if_pos ⟨halive,not_lt.mp hlen⟩] at hidle
      simp at hidle
    · exact hp.ended (eq_false_of_ne_true halive)
  have hhanded := hp.handed
  rw [htasks,List.filter_nil,List.append_nil] at hhanded
  rw [hhanded,hall]

/-- A server connection that has come to rest has handed on its frames and kept its alignment
exactly when no frame has a handler and no timeout fell between a length field and its body. -/
theorem inbound_delivery_iff (frames : List (FMPFrame srv)) (es : List InboundEvent)
    (hrun : (machine srv .dropped).exec (connect frames) es = some p)
    (_ : p.Settled srv .dropped) :
    (p.handed = wanted frames ∧
      (machine srv .dropped).Along (fun _ _ q => Aligned frames q) (connect frames) es) ↔
    wanted frames = [] ∧ (machine srv .dropped).Along TimesOutBetween (connect frames) es := by
  rw [handed_of_dropped (Machine.Reaches.of_exec hrun),along_aligned_iff]
  exact and_congr_left fun _ => eq_comm

def heartbeatBody (id : String) : Bytes :=
  let payload := (Json.obj [("message_id",.str id),
    ("link",.obj [("source_id",.str "a"),("target_id",.str "b")]),
    ("business",.obj [("payload_type",.str "heartbeat"),("payload",.str "e30=")]),
    ("control",.obj [("control_type",.str "heartbeat")])]).encode
  fmpMagic ++ [fmpVersion,0] ++ bigEndian 4 payload.length ++ [0,0] ++ payload

def heartbeatMessage (id : String) : FMPMessage :=
  { messageId := id, link := ⟨"a","b",0,3,[]⟩
    business := ⟨.heartbeat,[123,125],"",0,10⟩
    control := ⟨.heartbeat,0,.ofNat 0,0,64⟩ }

def plainServer : FMPServer := ⟨none,fun _ => none,fun _ => true⟩

def heartbeatFrame : FMPFrame plainServer where
  body := heartbeatBody "fmp_1"
  message := heartbeatMessage "fmp_1"
  positive := by decide +kernel
  bounded := by decide +kernel
  receives := by decide +kernel

def heartbeatEvents : List InboundEvent := [.arrive 3,.arrive 400,.read,.read]

theorem heartbeat_run : (machine plainServer .dropped).exec (connect [heartbeatFrame])
    heartbeatEvents = some { inFlight := [] } := by
  decide +kernel

theorem heartbeat_settled : Settled plainServer .dropped { inFlight := [] } := ⟨rfl,rfl,rfl⟩

theorem inbound_delivery_heartbeat :
    ([] = wanted [heartbeatFrame] ∧
      (machine plainServer .dropped).Along (fun _ _ q => Aligned [heartbeatFrame] q)
        (connect [heartbeatFrame]) heartbeatEvents) ↔
    wanted [heartbeatFrame] = [] ∧
      (machine plainServer .dropped).Along TimesOutBetween (connect [heartbeatFrame])
        heartbeatEvents :=
  inbound_delivery_iff [heartbeatFrame] heartbeatEvents heartbeat_run heartbeat_settled

def nextHeartbeat : FMPFrame plainServer where
  body := heartbeatBody "fmp_2"
  message := heartbeatMessage "fmp_2"
  positive := by decide +kernel
  bounded := by decide +kernel
  receives := by decide +kernel

/-- Two heartbeats of which the first arrives with a part of the second. -/
theorem connection_delivery_heartbeats :
    [heartbeatMessage "fmp_1",heartbeatMessage "fmp_2"] =
      wanted [heartbeatFrame,nextHeartbeat] := by
  have hrun : (machine plainServer .scheduled).exec (connect [heartbeatFrame,nextHeartbeat])
      [.arrive 3,.arrive 400,.read,.read,.read,.runTask,.arrive 400,.read,.runTask] =
      some { inFlight := [], handed := [heartbeatMessage "fmp_1",heartbeatMessage "fmp_2"] } := by
    decide +kernel
  exact connection_delivery (G := fun _ ev => ev ≠ .timeout) (fun _ _ hne heq => absurd heq hne)
    (.of_exec_of_forall (by simp) hrun) ⟨rfl,rfl,rfl⟩

theorem inbound_frame_is_lost : ¬∀ (srv : FMPServer) (frames : List (FMPFrame srv))
    (es : List InboundEvent) (p : InboundPeer),
    (machine srv .dropped).exec (connect frames) es = some p → p.Settled srv .dropped →
    p.handed = wanted frames ∧
      (machine srv .dropped).Along (fun _ _ q => Aligned frames q) (connect frames) es := by
  intro h
  have hhanded := (h _ _ _ _ heartbeat_run heartbeat_settled).1
  simp [wanted,heartbeatFrame,plainServer] at hhanded

end InboundPeer
end FusionMultiNodes

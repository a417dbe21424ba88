import CraftClient.Wire.Message

/-! The receive loops of a connection: `craft_conn::recv_message`, and the pump of `craft_async_conn`. -/

namespace CraftClient.Wire

open Framing
open Client (NetError)

inductive Recv
  | bytes (bs : List UInt8)
  | timedOut
  | failed
  deriving DecidableEq, Repr

section RecvMessage

def kRecvChunk : ℕ := 16 * 1024

/-- `craft_conn::recv_message` with `rx_` and what the recvs to come return. Without a result it still waits. On
the end of the stream `rx_` keeps the room that was made for the recv. -/
def recvMessage (maxTx : UInt32) (dg : DigestCfg) (rx : List UInt8) :
    List Recv → Option (Except NetError (List UInt8) × List UInt8 × List Recv)
  | [] =>
    match parseMessage rx maxTx dg with
    | .ok m => some (.ok (rx.take m.total), rx.drop m.total, [])
    | .error .incomplete => none
    | .error _ => some (.error .malformed, rx, [])
  | r :: io =>
    match parseMessage rx maxTx dg with
    | .ok m => some (.ok (rx.take m.total), rx.drop m.total, r :: io)
    | .error .incomplete =>
      match r with
      | .bytes [] => some (.error .closed, rx ++ List.replicate kRecvChunk 0, io)
      | .bytes bs => recvMessage maxTx dg (rx ++ bs) io
      | .timedOut => some (.error .timedOut, rx, io)
      | .failed => some (.error .recv, rx, io)
    | .error _ => some (.error .malformed, rx, r :: io)

def recvMany (maxTx : UInt32) (dg : DigestCfg) :
    ℕ → List UInt8 → List Recv → Option (List (List UInt8) × List UInt8 × List Recv)
  | 0, rx, io => some ([], rx, io)
  | k + 1, rx, io =>
    match recvMessage maxTx dg rx io with
    | some (.ok msg, rx', io') =>
      (recvMany maxTx dg k rx' io').map fun (msgs, rest) => (msg :: msgs, rest)
    | _ => none

variable {maxTx : UInt32} {dg : DigestCfg} {f rx rest : List UInt8} {m : Message} {chunks : List (List UInt8)}

lemma recvMessage_of_ok (h : parseMessage rx maxTx dg = .ok m) (io : List Recv) :
    recvMessage maxTx dg rx io = some (.ok (rx.take m.total), rx.drop m.total, io) := by
  cases io <;> simp only [recvMessage, h]

lemma recvMessage_whole (hf : (parser maxTx dg).Frame f m) (hp : parseMessage (f ++ rx) maxTx dg = .ok m)
    (io : List Recv) : recvMessage maxTx dg (f ++ rx) io = some (.ok f, rx, io) := by
  have hlen : m.total = f.length := hf.2
  rw [recvMessage_of_ok hp, hlen, List.take_left, List.drop_left]

lemma recvMessage_frame (hf : (parser maxTx dg).Frame f m) (hne : ∀ c ∈ chunks, c ≠ [])
    (hs : rx ++ chunks.flatten = f ++ rest) :
    ∃ rx' : List UInt8, ∃ chunks' : List (List UInt8),
      recvMessage maxTx dg rx (chunks.map .bytes) = some (.ok f, rx', chunks'.map .bytes) ∧
      rx' ++ chunks'.flatten = rest ∧ ∀ c ∈ chunks', c ≠ [] := by
  induction chunks generalizing rx with
  | nil =>
    rcases hf.parse_front hs with ⟨rx', rfl, hrest, hp⟩ | ⟨hlt, -⟩
    · exact ⟨rx', [], recvMessage_whole hf hp [], hrest, hne⟩
    · have hlen := congrArg List.length hs
      simp only [List.flatten_nil, List.append_nil, List.length_append] at hlen
      omega
  | cons c cs ih =>
    rcases hf.parse_front hs with ⟨rx', rfl, hrest, hp⟩ | ⟨-, hp⟩
    · exact ⟨rx', c :: cs, recvMessage_whole hf hp _, hrest, hne⟩
    · replace hp : parseMessage rx maxTx dg = .error .incomplete := hp
      obtain ⟨b, bs, rfl⟩ := List.exists_cons_of_ne_nil (hne c List.mem_cons_self)
      have hstep : recvMessage maxTx dg rx (((b :: bs) :: cs).map .bytes) =
          recvMessage maxTx dg (rx ++ b :: bs) (cs.map .bytes) := by
        simp only [List.map_cons, recvMessage, hp]
      rw [hstep]
      apply ih (fun c hc => hne c (List.mem_cons_of_mem _ hc))
      rw [List.append_assoc]
      exact hs

lemma eq_nil_of_flatten (hne : ∀ c ∈ chunks, c ≠ []) (h : chunks.flatten = []) : chunks = [] := by
  cases chunks with
  | nil => rfl
  | cons c cs => exact absurd (List.flatten_eq_nil_iff.mp h c List.mem_cons_self) (hne c List.mem_cons_self)

lemma recvMany_frames (msgs : List (Outgoing maxTx)) (hne : ∀ c ∈ chunks, c ≠ [])
    (hs : rx ++ chunks.flatten = (msgs.map (·.frame dg)).flatten) :
    recvMany maxTx dg msgs.length rx (chunks.map .bytes) = some (msgs.map (·.frame dg), [], []) := by
  induction msgs generalizing rx chunks with
  | nil =>
    obtain ⟨rfl, hc⟩ := List.append_eq_nil_iff.mp hs
    rw [eq_nil_of_flatten hne hc]
    rfl
  | cons m msgs ih =>
    obtain ⟨rx', chunks', hr, hrest, hne'⟩ := recvMessage_frame (m.frame_isFrame dg) hne hs
    rw [List.length_cons, recvMany, hr]
    simp only [ih hne' hrest]
    rfl

end RecvMessage

section Pump

/-- The pump of `craft_async_conn` with the request ids of `pending_`. The rest is history: the messages that it has
cut off the stream, and those that it has handed over. -/
structure Pump where
  maxTx : UInt32
  rx : List UInt8
  pending : UInt16 → Bool
  seen : List (List UInt8)
  delivered : List (UInt16 × List UInt8)
  stopped : Bool

inductive PumpEvent
  | recv (r : Recv)
  | await (rid : UInt16)

namespace Pump

def start (maxTx : UInt32) : Pump := ⟨maxTx, [], fun _ => false, [], [], false⟩

variable (issue : List UInt8 → List UInt16) (p : Pump)

def failAll : Pump := { p with pending := fun _ => false, stopped := true }

/-- The message at the front leaves the buffer. The operation that awaits it is resumed; `issue` are the request ids
under which it goes on to send. -/
def take (m : Message) : Pump :=
  let msg := p.rx.take m.total
  let rid := m.hdr.requestId
  let p' := { p with rx := p.rx.drop m.total, seen := p.seen ++ [msg] }
  if p.pending rid then
    { p' with
      pending := fun r => (p.pending r && r != rid) || (issue msg).contains r
      delivered := p.delivered ++ [(rid, msg)] }
  else p'

def drain : ℕ → Pump → Pump
  | 0, p => p
  | k + 1, p =>
    match parseMessage p.rx p.maxTx {} with
    | .ok m => drain k (p.take issue m)
    | .error .incomplete => p
    | .error _ => p.failAll

def onRecv : Recv → Pump
  | .bytes [] | .timedOut | .failed => p.failAll
  | .bytes bs => drain issue (p.rx ++ bs).length { p with rx := p.rx ++ bs }

def step : PumpEvent → Pump
  | .recv r => if p.stopped then p else p.onRecv issue r
  | .await rid => { p with pending := Function.update p.pending rid true }

end Pump

def PumpEvent.bytes : PumpEvent → List UInt8
  | .recv (.bytes bs) => bs
  | _ => []

def PumpEvent.Good : PumpEvent → Prop
  | .recv (.bytes bs) => bs ≠ []
  | .recv _ => False
  | .await _ => True

/-- The request id of a message behind `done` is awaited before the last byte of the message is there. -/
def AwaitedInTime {maxTx : UInt32} (evs : List PumpEvent) (done : List (Outgoing maxTx)) (m : Outgoing maxTx) : Prop :=
  ∃ evs₁ evs₂, evs = evs₁ ++ .await m.requestId :: evs₂ ∧
    (evs₁.map PumpEvent.bytes).flatten.length < ((done ++ [m]).map (·.frame {})).flatten.length

def Outgoing.keyed {maxTx : UInt32} (m : Outgoing maxTx) : UInt16 × List UInt8 := (m.requestId, m.frame {})

namespace Pump

variable {issue : List UInt8 → List UInt16} {p : Pump} {maxTx : UInt32}

@[simp] lemma take_rx (m : Message) : (p.take issue m).rx = p.rx.drop m.total := by
  rw [take]
  split_ifs <;> rfl

@[simp] lemma take_seen (m : Message) : (p.take issue m).seen = p.seen ++ [p.rx.take m.total] := by
  rw [take]
  split_ifs <;> rfl

@[simp] lemma take_stopped (m : Message) : (p.take issue m).stopped = p.stopped := by
  rw [take]
  split_ifs <;> rfl

@[simp] lemma take_maxTx (m : Message) : (p.take issue m).maxTx = p.maxTx := by
  rw [take]
  split_ifs <;> rfl

lemma take_delivered (m : Message) : (p.take issue m).delivered =
    p.delivered ++ if p.pending m.hdr.requestId then [(m.hdr.requestId, p.rx.take m.total)] else [] := by
  rw [take]
  split_ifs
  · rfl
  · exact (List.append_nil _).symm

lemma take_pending (m : Message) {rid : UInt16} (h : p.pending rid = true) (hne : rid ≠ m.hdr.requestId) :
    (p.take issue m).pending rid = true := by
  rw [take]
  split_ifs <;> simp [h, hne]

structure Lasts (issue : List UInt8 → List UInt16) (msgs : List (Outgoing maxTx)) (I : Pump → Prop) : Prop where
  take : ∀ (p : Pump) done m left, msgs = done ++ m :: left → p.seen = done.map (·.frame {}) →
    p.rx.take (m.message {}).total = m.frame {} → I p → I (p.take issue (m.message {}))
  recv : ∀ (p : Pump) rx, I p → I { p with rx := rx }
  await : ∀ (p : Pump) rid, I p → I { p with pending := Function.update p.pending rid true }

structure On (I : Pump → Prop) (msgs : List (Outgoing maxTx)) (more : List UInt8) (p : Pump) : Prop where
  bound : p.maxTx = maxTx
  running : p.stopped = false
  drained : parseMessage p.rx maxTx {} = .error .incomplete
  split : ∃ done left, msgs = done ++ left ∧ p.seen = done.map (·.frame {}) ∧
    p.rx ++ more = (left.map (·.frame {})).flatten
  lasting : I p

variable {I : Pump → Prop} {msgs : List (Outgoing maxTx)} {more : List UInt8}

lemma on_drain (hI : Lasts issue msgs I) (k : ℕ) (hk : p.rx.length ≤ k) (hm : p.maxTx = maxTx)
    (hr : p.stopped = false) (done left : List (Outgoing maxTx)) (hmsgs : msgs = done ++ left)
    (hseen : p.seen = done.map (·.frame {})) (hs : p.rx ++ more = (left.map (·.frame {})).flatten) (h : I p) :
    (drain issue k p).On I msgs more := by
  induction k generalizing p done left with
  | zero =>
    have hnil := List.eq_nil_of_length_eq_zero (Nat.le_zero.mp hk)
    refine ⟨hm, hr, ?_, ⟨done, left, hmsgs, hseen, hs⟩, h⟩
    rw [drain, hnil]
    rfl
  | succ k ih =>
    have hwait : parseMessage p.rx maxTx {} = .error .incomplete → (drain issue (k + 1) p).On I msgs more := by
      intro hp
      rw [drain, hm, hp]
      exact ⟨hm, hr, hp, ⟨done, left, hmsgs, hseen, hs⟩, h⟩
    cases left with
    | nil =>
      obtain ⟨hnil, -⟩ := List.append_eq_nil_iff.mp hs
      exact hwait (by rw [hnil]; rfl)
    | cons m left =>
      have hf := m.frame_isFrame {}
      rcases hf.parse_front hs with ⟨rx', hrx, hrest, hp⟩ | ⟨-, hp⟩
      · replace hp : parseMessage p.rx p.maxTx {} = .ok (m.message {}) := hm ▸ hp
        have hlen : (m.message {}).total = (m.frame {}).length := hf.2
        have hfront : p.rx.take (m.message {}).total = m.frame {} := by rw [hlen, hrx, List.take_left]
        have hback : p.rx.drop (m.message {}).total = rx' := by rw [hlen, hrx, List.drop_left]
        have hpos := List.length_pos_of_ne_nil hf.ne_nil
        rw [drain, hp]
        apply ih _ (by rw [take_maxTx, hm]) (by rw [take_stopped, hr]) (done ++ [m]) left (by simp [hmsgs])
        · rw [take_seen, hfront, hseen, List.map_append]
          rfl
        · rwa [take_rx, hback]
        · exact hI.take p done m left hmsgs hseen hfront h
        · rw [take_rx, hback]
          rw [hrx, List.length_append] at hk
          omega
      · exact hwait hp

lemma On.step {e : PumpEvent} (hI : Lasts issue msgs I) (h : p.On I msgs (e.bytes ++ more)) (he : e.Good) :
    (p.step issue e).On I msgs more := by
  obtain ⟨done, left, hmsgs, hseen, hs⟩ := h.split
  cases e with
  | await rid =>
    exact ⟨h.bound, h.running, h.drained, ⟨done, left, hmsgs, hseen, hs⟩, hI.await p rid h.lasting⟩
  | recv r =>
    cases r with
    | timedOut => exact he.elim
    | failed => exact he.elim
    | bytes bs =>
      obtain ⟨b, bs, rfl⟩ := List.exists_cons_of_ne_nil he
      rw [Pump.step, if_neg (by rw [h.running]; nofun)]
      change (drain issue (p.rx ++ b :: bs).length { p with rx := p.rx ++ b :: bs }).On I msgs more
      refine on_drain hI _ le_rfl h.bound h.running done left hmsgs hseen ?_ (hI.recv p _ h.lasting)
      rw [List.append_assoc]
      exact hs

lemma On.run (hI : Lasts issue msgs I) (evs : List PumpEvent) (he : ∀ e ∈ evs, e.Good)
    (h : p.On I msgs ((evs.map PumpEvent.bytes).flatten ++ more)) :
    (evs.foldl (Pump.step issue) p).On I msgs more := by
  induction evs generalizing p with
  | nil => exact h
  | cons e evs ih =>
    rw [List.foldl_cons]
    apply ih fun e' he' => he e' (List.mem_cons_of_mem e he')
    apply On.step hI _ (he e List.mem_cons_self)
    rwa [List.map_cons, List.flatten_cons, List.append_assoc] at h

lemma On.complete (h : p.On I msgs []) : p.seen = msgs.map (·.frame {}) ∧ p.rx = [] ∧ p.stopped = false := by
  obtain ⟨done, left, hmsgs, hseen, hs⟩ := h.split
  rw [List.append_nil] at hs
  cases left with
  | nil =>
    rw [List.append_nil] at hmsgs
    exact ⟨hmsgs ▸ hseen, hs, h.running⟩
  | cons m left =>
    have hp : parseMessage (m.frame {} ++ (left.map (·.frame {})).flatten) maxTx {} = .ok (m.message {}) :=
      Parser.parse_ok_append _ (m.frame_isFrame {}).1
    have hd := h.drained
    rw [hs, List.map_cons, List.flatten_cons, hp] at hd
    exact absurd hd nofun

lemma on_start (msgs : List (Outgoing maxTx)) (h : I (start maxTx)) :
    (start maxTx).On I msgs (msgs.map (·.frame {})).flatten :=
  ⟨rfl, rfl, rfl, ⟨[], msgs, rfl, rfl, rfl⟩, h⟩

section Delivered

def InOrder (msgs : List (Outgoing maxTx)) (p : Pump) : Prop :=
  p.delivered.Sublist ((msgs.take p.seen.length).map Outgoing.keyed)

lemma lasts_inOrder (msgs : List (Outgoing maxTx)) : Lasts issue msgs (InOrder msgs) where
  take p done m left hmsgs hseen hfront h := by
    have hlen : p.seen.length = done.length := by rw [hseen, List.length_map]
    have hdone : msgs.take done.length = done := by rw [hmsgs, List.take_left]
    have hnext : msgs.take (done.length + 1) = done ++ [m] := by
      rw [hmsgs, List.append_cons, List.take_left' (by simp)]
    rw [InOrder, hlen, hdone] at h
    rw [InOrder, take_seen, List.length_append, hlen, List.length_singleton, hnext, take_delivered, hfront,
      List.map_append]
    apply h.append
    split_ifs
    · exact List.Sublist.refl _
    · exact List.nil_sublist _
  recv _ _ h := h
  await _ _ h := h

def Due (done : List (Outgoing maxTx)) (m : Outgoing maxTx) (p : Pump) : Prop :=
  p.pending m.requestId = true ∧ p.seen.length ≤ done.length ∨ m.keyed ∈ p.delivered

lemma lasts_due {done left : List (Outgoing maxTx)} {m : Outgoing maxTx} (hmsgs : msgs = done ++ m :: left)
    (hnodup : (msgs.map Outgoing.requestId).Nodup) : Lasts issue msgs (Due done m) where
  take p done' m' left' hmsgs' hseen hfront h := by
    have hlen : p.seen.length = done'.length := by rw [hseen, List.length_map]
    obtain ⟨hpend, hle⟩ | hmem := h
    · rw [hlen] at hle
      rcases hle.eq_or_lt with heq | hlt
      · -- its turn has come
        obtain ⟨rfl, htail⟩ := List.append_inj (hmsgs'.symm.trans hmsgs) heq
        obtain ⟨rfl, -⟩ := List.cons.inj htail
        right
        have hp : p.pending (m'.message {}).hdr.requestId = true := hpend
        rw [take_delivered, if_pos hp, hfront]
        exact List.mem_append_right _ (List.mem_singleton.mpr rfl)
      · left
        refine ⟨take_pending _ hpend ?_, ?_⟩
        · have hm' : m' ∈ done := by
            have hget : done[done'.length]? = some m' := by
              have hall : msgs[done'.length]? = some m' := by simp [hmsgs']
              rwa [hmsgs, List.getElem?_append_left hlt] at hall
            exact List.mem_of_getElem? hget
          rw [hmsgs, List.map_append, List.map_cons, List.nodup_append] at hnodup
          intro heq
          exact hnodup.2.2 _ (List.mem_map_of_mem hm') _ List.mem_cons_self heq.symm
        · rw [take_seen, List.length_append, hlen]
          exact hlt
    · right
      rw [take_delivered]
      exact List.mem_append_left _ hmem
  recv _ _ h := h
  await p rid h := by
    refine h.imp_left fun ⟨hpend, hle⟩ => ⟨?_, hle⟩
    simp only [Function.update_apply]
    split_ifs
    · rfl
    · exact hpend

lemma On.length_seen_le {done left : List (Outgoing maxTx)} {m : Outgoing maxTx} {got : List UInt8}
    (h : p.On I msgs more) (hmsgs : msgs = done ++ m :: left) (hgot : got ++ more = (msgs.map (·.frame {})).flatten)
    (hlt : got.length < ((done ++ [m]).map (·.frame {})).flatten.length) : p.seen.length ≤ done.length := by
  obtain ⟨done', left', hmsgs', hseen, hs⟩ := h.split
  rw [hseen, List.length_map]
  by_contra hgt
  have hnext : done ++ [m] <+: msgs := ⟨left, by simp [hmsgs]⟩
  have htaken : done' <+: msgs := ⟨left', hmsgs'.symm⟩
  have hlonger : (done ++ [m]).length ≤ done'.length := by
    rw [List.length_append, List.length_singleton]
    omega
  obtain ⟨tail, rfl⟩ := List.prefix_of_prefix_length_le hnext htaken hlonger
  have hlen := congrArg List.length hgot
  have hlen' := congrArg List.length hs
  simp only [hmsgs', List.map_append, List.flatten_append, List.length_append] at hlen hlen' hlt
  omega

lemma mem_delivered {done left : List (Outgoing maxTx)} {m : Outgoing maxTx} {evs : List PumpEvent}
    (hgood : ∀ e ∈ evs, e.Good) (hcut : (evs.map PumpEvent.bytes).flatten = (msgs.map (·.frame {})).flatten)
    (hnodup : (msgs.map Outgoing.requestId).Nodup) (hmsgs : msgs = done ++ m :: left)
    (haw : AwaitedInTime evs done m) : m.keyed ∈ (evs.foldl (Pump.step issue) (start maxTx)).delivered := by
  obtain ⟨evs₁, evs₂, rfl, hlt⟩ := haw
  have htrue : Lasts issue msgs fun _ => True := ⟨fun _ _ _ _ _ _ _ _ => trivial, fun _ _ _ => trivial,
    fun _ _ _ => trivial⟩
  rw [List.map_append, List.flatten_append, List.map_cons, List.flatten_cons] at hcut
  have hbefore : (evs₁.foldl (Pump.step issue) (start maxTx)).On (fun _ => True) msgs
      (evs₂.map PumpEvent.bytes).flatten := by
    apply On.run htrue evs₁ fun e he => hgood e (List.mem_append_left _ he)
    have hall : (evs₁.map PumpEvent.bytes).flatten ++ (evs₂.map PumpEvent.bytes).flatten = _ := hcut
    rw [hall]
    exact on_start msgs trivial
  have hle := hbefore.length_seen_le hmsgs hcut hlt
  have hawaits : (Pump.step issue (evs₁.foldl (Pump.step issue) (start maxTx)) (.await m.requestId)).On (Due done m)
      msgs ((evs₂.map PumpEvent.bytes).flatten ++ []) := by
    rw [List.append_nil]
    exact ⟨hbefore.bound, hbefore.running, hbefore.drained, hbefore.split,
      Or.inl ⟨by simp [Pump.step], hle⟩⟩
  have hlasts : Lasts issue msgs (Due done m) := lasts_due hmsgs hnodup
  have hafter := On.run hlasts evs₂
    (fun e he => hgood e (List.mem_append_right _ (List.mem_cons_of_mem _ he))) hawaits
  rw [List.foldl_append, List.foldl_cons]
  refine hafter.lasting.resolve_left fun hdue => ?_
  have hlen := congrArg List.length hafter.complete.1
  rw [List.length_map, hmsgs, List.length_append, List.length_cons] at hlen
  omega

end Delivered

end Pump

end Pump

theorem framing_exact {maxTx : UInt32} (dg : DigestCfg) (msgs : List (Outgoing maxTx)) :
    (∀ chunks : List (List UInt8), (∀ c ∈ chunks, c ≠ []) →
      chunks.flatten = (msgs.map (·.frame dg)).flatten →
      recvMany maxTx dg msgs.length [] (chunks.map .bytes) = some (msgs.map (·.frame dg), [], [])) ∧
    (∀ issue (evs : List PumpEvent), (∀ e ∈ evs, e.Good) →
      (evs.map PumpEvent.bytes).flatten = (msgs.map (·.frame {})).flatten →
      let p := evs.foldl (Pump.step issue) (Pump.start maxTx)
      (p.seen = msgs.map (·.frame {}) ∧ p.rx = [] ∧ p.stopped = false) ∧
      p.delivered.Sublist (msgs.map Outgoing.keyed) ∧
      ((msgs.map Outgoing.requestId).Nodup →
        (∀ done m left, msgs = done ++ m :: left → AwaitedInTime evs done m → m.keyed ∈ p.delivered) ∧
        ((∀ done m left, msgs = done ++ m :: left → AwaitedInTime evs done m) →
          p.delivered = msgs.map Outgoing.keyed))) ∧
    (∀ m ∈ msgs, parseMessage (m.frame dg) maxTx dg = .ok (m.message dg) ∧
      ∀ k < (m.frame dg).length, parseMessage ((m.frame dg).take k) maxTx dg = .error .incomplete) ∧
    ∀ buf more, parseMessage buf maxTx dg ≠ .error .incomplete →
      parseMessage (buf ++ more) maxTx dg = parseMessage buf maxTx dg := by
  refine ⟨?_, ?_, ?_, fun buf more => parseMessage_append more⟩
  · intro chunks hne hcut
    exact recvMany_frames msgs hne hcut
  · intro issue evs hgood hcut p
    have hrun : p.On (Pump.InOrder msgs) msgs [] := by
      apply Pump.On.run (Pump.lasts_inOrder msgs) evs hgood
      rw [hcut, List.append_nil]
      exact Pump.on_start msgs (List.nil_sublist _)
    have hsub : p.delivered.Sublist (msgs.map Outgoing.keyed) :=
      hrun.lasting.trans ((List.take_sublist _ _).map _)
    refine ⟨hrun.complete, hsub, fun hnodup => ?_⟩
    have hmem : ∀ done m left, msgs = done ++ m :: left → AwaitedInTime evs done m → m.keyed ∈ p.delivered :=
      fun done m left hmsgs haw => Pump.mem_delivered hgood hcut hnodup hmsgs haw
    refine ⟨hmem, fun hall => hsub.eq_of_length_le ?_⟩
    -- the messages differ in their request ids, so that all of them are among the delivered ones
    have hkeyed : (msgs.map Outgoing.keyed).Nodup := by
      apply List.Nodup.of_map Prod.fst
      rwa [List.map_map]
    apply (hkeyed.subperm ?_).length_le
    intro x hx
    obtain ⟨m, hm, rfl⟩ := List.mem_map.mp hx
    obtain ⟨done, left, hmsgs⟩ := List.append_of_mem hm
    exact hmem done m left hmsgs (hall done m left hmsgs)
  · intro m _
    exact ⟨m.parseMessage_frame dg, fun k hk => (m.frame_isFrame dg).parse_take hk⟩

theorem pump_takes_digest_for_message :
    let m : Outgoing 4096 := ⟨.heloRsp, 0, 1, [], [], rfl, nofun, by decide⟩
    let p := [PumpEvent.await 1, .recv (.bytes (m.frame { header := true }))].foldl (Pump.step fun _ => [])
      (Pump.start 4096)
    p.seen ≠ [m.frame { header := true }] ∧ p.rx ≠ [] := by
  decide +kernel

end CraftClient.Wire

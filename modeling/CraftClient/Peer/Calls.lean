import CraftClient.Lib.Runs
import CraftClient.Peer.TcpFetch

/-! The calls on one `CraftTcpPeer`; nothing keeps two of them apart. -/

namespace CraftClient.Peer

open Client Net Raft Replica Runs Wire

inductive PeerCall
  | getRsCommitLsn (term : UInt64) (isLogin : Bool)
  | fetchData (lsns : List Int64)
  deriving DecidableEq

inductive PeerValue
  | lsns (l : LsnPair)
  | slots (l : List JournalSlot)
  deriving DecidableEq

def PeerCall.request (requestId : UInt16) : PeerCall → List UInt8
  | .getRsCommitLsn term isLogin =>
    frameMessage .getRsCommitLsn 0 requestId
      (encodeU64 term ++ (if isLogin then 1 else 0) :: List.replicate 7 0) [] {}
  | .fetchData lsns => fetchRequest lsns requestId

def takeLsnReply (reply : List UInt8) : Except PeerFailure LsnPair :=
  match parseMessage reply kDefaultMaxTx {} with
  | .error _ => .error (.error (netToError .malformed))
  | .ok m =>
    if m.hdr.status ≠ Wire.ok then .error internalError
    else .ok ⟨decodeI64 m.opHeader 0, decodeI64 m.opHeader 8⟩

def PeerCall.decode (reply : List UInt8) : PeerCall → Except PeerFailure PeerValue
  | .getRsCommitLsn _ _ => (takeLsnReply reply).map .lsns
  | .fetchData _ => (takeReply reply).map .slots

inductive CallPc
  | idle
  | connecting
  | ready
  | waiting
  | returned (v : PeerValue)
  | failed (e : PeerFailure)
  deriving DecidableEq

def CallPc.Active : CallPc → Bool
  | .connecting | .ready | .waiting => true
  | _ => false

variable {ι : Type}

/-- `asked` are the requests that the server has yet to answer on the connection of `conn_`, `replies` its messages
that no call has taken. `answered` is what the server has made of the request of each call. -/
structure PeerLine (ι : Type) where
  connected : Bool
  nextRid : UInt16
  asked : List (ι × List UInt8)
  replies : List (List UInt8)
  pcs : ι → CallPc
  answered : ι → Option (List UInt8)

inductive LineAct (ι : Type)
  | enter (c : ι)
  | connect (c : ι) (up : Bool)
  | send (c : ι) (sent : Bool)
  | serve (reply : List UInt8)
  | receive (c : ι)
  | fault (c : ι) (e : NetError)

namespace PeerLine

def start : PeerLine ι := ⟨false, 1, [], [], fun _ => .idle, fun _ => none⟩

variable [DecidableEq ι] (s : PeerLine ι)

def setPc (c : ι) (pc : CallPc) : PeerLine ι := { s with pcs := Function.update s.pcs c pc }

def deliver (calls : ι → PeerCall) (c : ι) (reply : List UInt8) (rest : List (List UInt8)) : PeerLine ι :=
  { s.setPc c (match (calls c).decode reply with
      | .ok v => .returned v
      | .error e => .failed e) with
    replies := rest
    connected := s.connected && (parseMessage reply kDefaultMaxTx {}).isOk }

end PeerLine

def lineStep [DecidableEq ι] (calls : ι → PeerCall) (s : PeerLine ι) : LineAct ι → Option (PeerLine ι)
  | .enter c =>
    match s.pcs c with
    | .idle => some (s.setPc c (if s.connected then .ready else .connecting))
    | _ => none
  | .connect c up =>
    match s.pcs c with
    | .connecting =>
      if up then some { s.setPc c .ready with connected := true, asked := [], replies := [] }
      else some (s.setPc c (.failed (.error (.craft .replicaDown))))
    | _ => none
  | .send c sent =>
    match s.pcs c with
    | .ready =>
      if sent then
        some { s.setPc c .waiting with
          nextRid := s.nextRid + 1, asked := s.asked ++ [(c, (calls c).request s.nextRid)] }
      else some { s.setPc c (.failed (.error (.craft .replicaDown))) with nextRid := s.nextRid + 1, connected := false }
    | _ => none
  | .serve reply =>
    match s.asked with
    | [] => none
    | (c, _) :: rest =>
      some { s with
        asked := rest, replies := s.replies ++ [reply], answered := Function.update s.answered c (some reply) }
  | .receive c =>
    match s.pcs c, s.replies with
    | .waiting, reply :: rest => some (s.deliver calls c reply rest)
    | _, _ => none
  | .fault c e =>
    match s.pcs c with
    | .waiting => some { s.setPc c (.failed (.error (netToError e))) with connected := false }
    | _ => none

/-- A call is entered only when no other is under way. -/
def Alone (s : PeerLine ι) : LineAct ι → Prop
  | .enter c => ∀ c', c' ≠ c → (s.pcs c').Active = false
  | _ => True

instance decidableAlone [DecidableEq ι] [Fintype ι] (s : PeerLine ι) : (a : LineAct ι) → Decidable (Alone s a)
  | .enter c => inferInstanceAs (Decidable (∀ c', c' ≠ c → (s.pcs c').Active = false))
  | .connect _ _ => .isTrue trivial
  | .send _ _ => .isTrue trivial
  | .serve _ => .isTrue trivial
  | .receive _ => .isTrue trivial
  | .fault _ _ => .isTrue trivial

def OwnsLine (s : PeerLine ι) (c : ι) : Prop :=
  s.connected = true ∧
    ((∃ req, s.asked = [(c, req)]) ∧ s.replies = [] ∨
      s.asked = [] ∧ ∃ reply, s.replies = [reply] ∧ s.answered c = some reply)

structure CallsInv (calls : ι → PeerCall) (s : PeerLine ι) : Prop where
  alone : ∀ c c', (s.pcs c).Active → (s.pcs c').Active → c = c'
  ready : ∀ c, s.pcs c = .ready → s.connected = true
  quiet : s.connected = true → (∀ c, s.pcs c ≠ .waiting) → s.asked = [] ∧ s.replies = []
  waiting : ∀ c, s.pcs c = .waiting → OwnsLine s c
  -- a request left on a lost connection is not of a call that has returned
  unserved : ∀ p ∈ s.asked, ∀ v, s.pcs p.1 ≠ .returned v
  returned : ∀ c v, s.pcs c = .returned v → ∃ reply, s.answered c = some reply ∧ (calls c).decode reply = .ok v

namespace CallsInv

variable {calls : ι → PeerCall} {s t : PeerLine ι} {c : ι}

lemma start : CallsInv calls (.start : PeerLine ι) where
  alone _ _ h := absurd h Bool.false_ne_true
  ready _ h := CallPc.noConfusion h
  quiet _ _ := ⟨rfl, rfl⟩
  waiting _ h := CallPc.noConfusion h
  unserved _ hp := absurd hp List.not_mem_nil
  returned _ _ h := CallPc.noConfusion h

lemma others (h : CallsInv calls s) (hc : (s.pcs c).Active = true) : ∀ c', c' ≠ c → (s.pcs c').Active = false :=
  fun c' hne => Bool.eq_false_iff.mpr fun hc' => hne (h.alone c' c hc' hc)

lemma nothing_on_line (h : CallsInv calls s) (hother : ∀ c', c' ≠ c → (s.pcs c').Active = false)
    (hc : s.pcs c ≠ .waiting) (hconn : s.connected = true) : s.asked = [] ∧ s.replies = [] := by
  refine h.quiet hconn fun c' hw => ?_
  by_cases he : c' = c
  · exact hc (he ▸ hw)
  · have hoff := hother c' he
    rw [hw] at hoff
    exact absurd hoff (by decide)

variable [DecidableEq ι]

lemma move (h : CallsInv calls s) (pc : CallPc) (hother : ∀ c', c' ≠ c → (s.pcs c').Active = false)
    (hpcs : t.pcs = Function.update s.pcs c pc) (hans : t.answered = s.answered)
    (hready : pc = .ready → t.connected = true)
    (hquiet : pc ≠ .waiting → t.connected = true → t.asked = [] ∧ t.replies = [])
    (hwait : pc = .waiting → OwnsLine t c)
    (hask : t.asked = [] ∨ (∀ v, pc ≠ .returned v) ∧ ∀ p ∈ t.asked, p.1 = c ∨ p ∈ s.asked)
    (hret : ∀ v, pc = .returned v → ∃ reply, s.answered c = some reply ∧ (calls c).decode reply = .ok v) :
    CallsInv calls t := by
  have hself : t.pcs c = pc := by rw [hpcs, Function.update_self]
  have hne : ∀ c', c' ≠ c → t.pcs c' = s.pcs c' := fun c' hc' => by rw [hpcs, Function.update_of_ne hc']
  have hactive : ∀ c', (t.pcs c').Active = true → c' = c := by
    intro c' hact
    by_contra hc'
    rw [hne c' hc', hother c' hc'] at hact
    exact Bool.false_ne_true hact
  refine ⟨fun c' c'' h' h'' => (hactive c' h').trans (hactive c'' h'').symm, fun c' h' => ?_, fun hconn hno => ?_,
    fun c' h' => ?_, fun p hp v hv => ?_, fun c' v h' => ?_⟩
  · obtain rfl := hactive c' (by rw [h']; rfl)
    exact hready (hself.symm.trans h')
  · exact hquiet (fun he => hno c (hself.trans he)) hconn
  · obtain rfl := hactive c' (by rw [h']; rfl)
    exact hwait (hself.symm.trans h')
  · rcases hask with hnil | ⟨hnot, hask⟩
    · rw [hnil] at hp
      exact absurd hp List.not_mem_nil
    · by_cases hc : p.1 = c
      · rw [hc, hself] at hv
        exact hnot v hv
      · rw [hne _ hc] at hv
        exact h.unserved p ((hask p hp).resolve_left hc) v hv
  · rw [hans]
    by_cases hc : c' = c
    · subst hc
      exact hret v (hself.symm.trans h')
    · rw [hne _ hc] at h'
      exact h.returned c' v h'

lemma serve (h : CallsInv calls s) {reply req : List UInt8} {rest : List (ι × List UInt8)}
    (hs : s.asked = (c, req) :: rest) :
    CallsInv calls { s with
      asked := rest, replies := s.replies ++ [reply], answered := Function.update s.answered c (some reply) } := by
  refine ⟨h.alone, h.ready, fun hconn hno => ?_, fun c' hw => ?_, fun p hp => ?_, fun c' v hv => ?_⟩
  · have hnil := (h.quiet hconn hno).1
    rw [hs] at hnil
    exact absurd hnil (List.cons_ne_nil _ _)
  · obtain ⟨hconn, ⟨⟨req', hasked⟩, hnil⟩ | ⟨hasked, -⟩⟩ := h.waiting c' hw
    · rw [hs] at hasked
      obtain ⟨he, rfl⟩ := List.cons.inj hasked
      obtain ⟨rfl, -⟩ := Prod.mk.inj he
      refine ⟨hconn, Or.inr ⟨rfl, reply, ?_, Function.update_self _ _ _⟩⟩
      change s.replies ++ [reply] = _
      rw [hnil, List.nil_append]
    · rw [hs] at hasked
      exact absurd hasked (List.cons_ne_nil _ _)
  · exact h.unserved p (hs ▸ List.mem_cons_of_mem _ hp)
  · have hne : c' ≠ c := by
      rintro rfl
      exact h.unserved (c', req) (hs ▸ List.mem_cons_self) v hv
    obtain ⟨r, hr, hdec⟩ := h.returned c' v hv
    exact ⟨r, (Function.update_of_ne hne _ _).trans hr, hdec⟩

lemma receive (h : CallsInv calls s) {reply : List UInt8} {rest : List (List UInt8)} (hw : s.pcs c = .waiting)
    (hs : s.replies = reply :: rest) : CallsInv calls (s.deliver calls c reply rest) := by
  obtain ⟨-, ⟨-, hnil⟩ | ⟨hasked, r, hr, hans⟩⟩ := h.waiting c hw
  · rw [hs] at hnil
    exact absurd hnil (List.cons_ne_nil _ _)
  · rw [hs] at hr
    obtain ⟨rfl, rfl⟩ := List.cons.inj hr
    have hother := h.others (by rw [hw]; rfl)
    cases hdec : (calls c).decode reply with
    | ok v =>
      refine h.move (.returned v) hother ?_ rfl (by rintro ⟨⟩) (fun _ _ => ⟨hasked, rfl⟩) (by rintro ⟨⟩)
        (Or.inl hasked) ?_
      · simp only [PeerLine.deliver, PeerLine.setPc, hdec]
      · rintro w ⟨⟩
        exact ⟨reply, hans, hdec⟩
    | error e =>
      refine h.move (.failed e) hother ?_ rfl (by rintro ⟨⟩) (fun _ _ => ⟨hasked, rfl⟩) (by rintro ⟨⟩)
        (Or.inl hasked) (by rintro _ ⟨⟩)
      simp only [PeerLine.deliver, PeerLine.setPc, hdec]

lemma lost (h : CallsInv calls s) (hother : ∀ c', c' ≠ c → (s.pcs c').Active = false) (e : PeerFailure)
    (hpcs : t.pcs = Function.update s.pcs c (.failed e)) (hans : t.answered = s.answered) (hask : t.asked = s.asked)
    (hconn : t.connected = false) : CallsInv calls t := by
  refine h.move (.failed e) hother hpcs hans (by rintro ⟨⟩) (fun _ hup => ?_) (by rintro ⟨⟩) (Or.inr ?_)
    (by rintro _ ⟨⟩)
  · rw [hconn] at hup
    exact absurd hup Bool.false_ne_true
  · rw [hask]
    exact ⟨by rintro _ ⟨⟩, fun _ hp => Or.inr hp⟩

lemma send (h : CallsInv calls s) {sent : Bool} (hc : s.pcs c = .ready)
    (ht : lineStep calls s (.send c sent) = some t) : CallsInv calls t := by
  have hother := h.others (by rw [hc]; rfl)
  simp only [lineStep, hc] at ht
  split_ifs at ht <;> obtain rfl := Option.some.inj ht
  · have hconn := h.ready c hc
    obtain ⟨hasked, hreplies⟩ := h.nothing_on_line hother (by rw [hc]; rintro ⟨⟩) hconn
    refine h.move .waiting hother rfl rfl (by rintro ⟨⟩) (fun hne => absurd rfl hne) (fun _ => ?_) (Or.inr ?_)
      (by rintro _ ⟨⟩)
    · refine ⟨hconn, Or.inl ⟨⟨(calls c).request s.nextRid, ?_⟩, hreplies⟩⟩
      change s.asked ++ _ = _
      rw [hasked, List.nil_append]
    · refine ⟨by rintro _ ⟨⟩, fun p hp => ?_⟩
      rcases List.mem_append.mp hp with hp | hp
      · exact Or.inr hp
      · exact Or.inl (by rw [List.mem_singleton.mp hp])
  · exact h.lost hother _ rfl rfl rfl rfl

lemma move_on (h : CallsInv calls s) (hother : ∀ c', c' ≠ c → (s.pcs c').Active = false)
    (hc : s.pcs c ≠ .waiting) {pc : CallPc} (hready : pc = .ready → s.connected = true) (hwait : pc ≠ .waiting)
    (hret : ∀ v, pc ≠ .returned v) : CallsInv calls (s.setPc c pc) :=
  h.move pc hother rfl rfl hready (fun _ => h.nothing_on_line hother hc) (fun he => absurd he hwait)
    (Or.inr ⟨hret, fun _ hp => Or.inr hp⟩) fun v hv => absurd hv (hret v)

lemma step (h : CallsInv calls s) {a : LineAct ι} (hok : Alone s a) (ht : lineStep calls s a = some t) :
    CallsInv calls t := by
  cases a with
  | enter c =>
    simp only [lineStep] at ht
    split at ht
    · rename_i hc
      obtain rfl := Option.some.inj ht
      have hidle : s.pcs c ≠ .waiting := by rw [hc]; rintro ⟨⟩
      split_ifs with hconn
      · exact h.move_on hok hidle (fun _ => hconn) (by rintro ⟨⟩) (by rintro _ ⟨⟩)
      · exact h.move_on hok hidle (by rintro ⟨⟩) (by rintro ⟨⟩) (by rintro _ ⟨⟩)
    · cases ht
  | connect c up =>
    simp only [lineStep] at ht
    split at ht
    · rename_i hc
      have hother := h.others (by rw [hc]; rfl)
      split_ifs at ht <;> obtain rfl := Option.some.inj ht
      · exact h.move .ready hother rfl rfl (fun _ => rfl) (fun _ _ => ⟨rfl, rfl⟩) (by rintro ⟨⟩) (Or.inl rfl)
          (by rintro _ ⟨⟩)
      · exact h.move_on hother (by rw [hc]; rintro ⟨⟩) (by rintro ⟨⟩) (by rintro ⟨⟩) (by rintro _ ⟨⟩)
    · cases ht
  | send c sent =>
    cases hc : s.pcs c
    case ready => exact h.send hc ht
    all_goals simp [lineStep, hc] at ht
  | serve reply =>
    simp only [lineStep] at ht
    split at ht
    · cases ht
    · rename_i hs
      obtain rfl := Option.some.inj ht
      exact h.serve hs
  | receive c =>
    simp only [lineStep] at ht
    split at ht
    · rename_i hw hs
      obtain rfl := Option.some.inj ht
      exact h.receive hw hs
    · cases ht
  | fault c e =>
    simp only [lineStep] at ht
    split at ht
    · rename_i hc
      obtain rfl := Option.some.inj ht
      exact h.lost (h.others (by rw [hc]; rfl)) _ rfl rfl rfl rfl
    · cases ht

end CallsInv

variable [DecidableEq ι]

theorem exclusive_call_gets_own_answer (calls : ι → PeerCall) {s : PeerLine ι}
    (h : Reach (lineStep calls) Alone .start s) (c : ι) (v : PeerValue) (hv : s.pcs c = .returned v) :
    ∃ reply, s.answered c = some reply ∧ (calls c).decode reply = .ok v := by
  have hi : CallsInv calls s := h.invariant .start fun _ _ _ hi hok ht => hi.step hok ht
  exact hi.returned c v hv

def pollAndFetch : Fin 2 → PeerCall
  | 0 => .getRsCommitLsn 3 true
  | 1 => .fetchData [4]

def lsnAnswer (l : LsnPair) : List UInt8 := (lsnReply .getRsCommitLsnRsp Wire.ok l).bytes 1

def slotAnswer : List UInt8 :=
  Reply.bytes ⟨.fetchDataRsp, Wire.ok, encodeCount 1, fetchBody [⟨4, false, false, 8, 1, some [1, 2, 3]⟩]⟩ 2

theorem exclusive_call_gets_own_answer_pollAndFetch :
    ∃ s, Reach (lineStep pollAndFetch) Alone .start s ∧
      s.pcs 1 = .returned (.slots [⟨4, false, false, 8, 1, some [1, 2, 3]⟩]) ∧
      ∃ reply, s.answered 1 = some reply ∧
        (pollAndFetch 1).decode reply = .ok (.slots [⟨4, false, false, 8, 1, some [1, 2, 3]⟩]) := by
  obtain ⟨s, hs, hv⟩ := Reach.exists_of_exec (lineStep pollAndFetch) Alone .start
    [.enter 0, .connect 0 true, .send 0 true, .serve (lsnAnswer ⟨5, 9⟩), .receive 0,
      .enter 1, .send 1 true, .serve slotAnswer, .receive 1]
    (fun s => s.pcs 1 = .returned (.slots [⟨4, false, false, 8, 1, some [1, 2, 3]⟩])) (by decide +kernel)
  have hv := of_decide_eq_true hv
  exact ⟨s, hs, hv, exclusive_call_gets_own_answer pollAndFetch hs 1 _ hv⟩

theorem poll_gets_answer_of_other :
    ∃ s, Reach (lineStep fun _ : Fin 2 => .getRsCommitLsn 3 true) free .start s ∧
      s.pcs 1 = .returned (.lsns ⟨5, 9⟩) ∧ s.answered 1 = some (lsnAnswer ⟨7, 7⟩) ∧
      takeLsnReply (lsnAnswer ⟨7, 7⟩) = .ok ⟨7, 7⟩ := by
  obtain ⟨s, hs, hv⟩ := Reach.exists_of_exec (lineStep fun _ : Fin 2 => .getRsCommitLsn 3 true) free .start
    [.enter 0, .connect 0 true, .enter 1, .send 0 true, .send 1 true, .serve (lsnAnswer ⟨5, 9⟩),
      .serve (lsnAnswer ⟨7, 7⟩), .receive 1]
    (fun s => s.pcs 1 = .returned (.lsns ⟨5, 9⟩) ∧ s.answered 1 = some (lsnAnswer ⟨7, 7⟩)) (by decide +kernel)
  obtain ⟨hv, ha⟩ := of_decide_eq_true hv
  exact ⟨s, hs, hv, ha, by decide +kernel⟩

end CraftClient.Peer

import CraftClient.Lib.Runs
import CraftClient.Net.WireRead

/-! The blocking tier of a `CraftTcpReplica`: a reply is told from others only by the connection it comes on. -/

namespace CraftClient.Net

open Framing Replica Runs Wire
open Client (NetError netToError)

inductive Verb
  | login
  | helo (term : UInt64)
  | write
  | read (addr len : UInt64)
  | keepAlive
  | resolve
  | logout
  deriving DecidableEq

namespace Verb

def rsp : Verb → Op
  | login => .loginRsp
  | helo _ => .heloRsp
  | write => .writeRsp
  | read _ _ => .readRsp
  | keepAlive => .keepaliveRsp
  | resolve => .resolveRsp
  | logout => .logoutRsp

def wellFormed (msg : List UInt8) (m : Message) : Verb → Bool
  | login => (decodeMembers m.body (decodeU32 m.opHeader 32).toNat).isSome
  | read addr len => (clientRead msg kMaxTx addr len (List.replicate len.toNat 0)).isOk
  | resolve => m.hdr.status ≠ Wire.ok || (decodeLsns m.body (decodeU32 m.opHeader 8).toNat).isSome
  | _ => true

def take (msg : List UInt8) (v : Verb) : Except NetError Message :=
  match parseMessage msg kMaxTx {} with
  | .error _ => .error .malformed
  | .ok m => if m.hdr.op ≠ v.rsp.code ∨ ¬ v.wellFormed msg m then .error .malformed else .ok m

end Verb

inductive BlockingOp
  | login
  | logout
  | write (term : UInt64)
  | read (term addr len : UInt64)
  | keepAlive (term : UInt64)
  | resolve (term : UInt64)
  deriving DecidableEq

namespace BlockingOp

def verb : BlockingOp → Verb
  | login => .login
  | logout => .logout
  | write _ => .write
  | read _ addr len => .read addr len
  | keepAlive _ => .keepAlive
  | resolve _ => .resolve

def term : BlockingOp → Option UInt64
  | login | logout => none
  | write term | read term _ _ | keepAlive term | resolve term => some term

def next (bound : Option UInt64) (op : BlockingOp) : Verb :=
  match op.term with
  | none => op.verb
  | some term => if bound = some term then op.verb else .helo term

end BlockingOp

/-- The two ends of a socket. `asked` are the requests that the server has not come to, `sent` the bytes on their way
to the client, each with the request that it answers. -/
structure Socket where
  asked : List ℕ
  sent : List (ℕ × UInt8)

structure Answered where
  op : BlockingOp
  verb : Verb
  request : ℕ
  reply : List (ℕ × UInt8)

inductive BlockingPc
  | idle
  | entered (op : BlockingOp)
  | ready (op : BlockingOp)
  | waiting (op : BlockingOp) (v : Verb) (request : ℕ)
  deriving DecidableEq

/-- `bound` is `bound_term_` while `bound_` is set, `sock` the socket that `conn_` has and `rx` its `rx_`. `requests`
counts what has been sent, `answers` is what the server has made of it. -/
structure Blocking where
  connected : Bool
  bound : Option UInt64
  sock : ℕ
  socks : ℕ → Socket
  rx : List (ℕ × UInt8)
  pc : BlockingPc
  requests : ℕ
  answers : List (ℕ × List UInt8)
  results : List Answered

/-- `send` may fail with the request at the server or not; `arrive` is a recv of `n` bytes, `fault` one that times
out, fails or finds the socket closed. `answer` and `skip` are the server at the next request of a socket. -/
inductive BlockingAct
  | call (op : BlockingOp)
  | connect (up : Bool)
  | send (sent reached : Bool)
  | arrive (n : ℕ)
  | receive
  | fault
  | answer (k : ℕ) (bytes : List UInt8)
  | skip (k : ℕ)

namespace Blocking

def start : Blocking := ⟨false, none, 0, fun _ => ⟨[], []⟩, [], .idle, 0, [], []⟩

variable (s : Blocking)

/-- `on_net_fault` for every fault but that of a short destination, which the proxy does not cause. -/
def onNetFault : Blocking := { s with connected := false, bound := none, pc := .idle }

def setSock (k : ℕ) (x : Socket) : Blocking := { s with socks := Function.update s.socks k x }

def ask : Blocking :=
  { s with
    socks := Function.update s.socks s.sock
      { s.socks s.sock with asked := (s.socks s.sock).asked ++ [s.requests] } }

def proceed (op : BlockingOp) (v : Verb) (m : Message) : Blocking :=
  match v with
  | .login =>
    let term := decodeU64 m.opHeader 0
    { s with bound := if 0 < term then some term else s.bound, pc := .idle }
  | .helo term =>
    if m.hdr.status = Wire.ok then { s with bound := some term, pc := .ready op } else { s with pc := .idle }
  | _ => { s with pc := .idle }

def takeReply (op : BlockingOp) (v : Verb) (request total : ℕ) : Blocking :=
  match v.take ((s.rx.take total).map Prod.snd) with
  | .error _ => { s with rx := s.rx.drop total }.onNetFault
  | .ok m =>
    { s with
      rx := s.rx.drop total
      results := ⟨op, v, request, s.rx.take total⟩ :: s.results }.proceed op v m

end Blocking

def blockingStep (s : Blocking) : BlockingAct → Option Blocking
  | .call op =>
    match s.pc with
    | .idle => some { s with pc := .entered op }
    | _ => none
  | .connect up =>
    match s.pc with
    | .entered op =>
      if s.connected then some { s with pc := .ready op }
      else if up then
        some { s.setSock (s.sock + 1) ⟨[], []⟩ with connected := true, sock := s.sock + 1, rx := [], pc := .ready op }
      else some { s with pc := .idle }
    | _ => none
  | .send sent reached =>
    match s.pc with
    | .ready op =>
      if sent then
        some { s.ask with pc := .waiting op (op.next s.bound) s.requests, requests := s.requests + 1 }
      else some { (if reached then s.ask else s).onNetFault with requests := s.requests + 1 }
    | _ => none
  | .arrive n =>
    match s.pc, parseMessage (s.rx.map Prod.snd) kMaxTx {} with
    | .waiting _ _ _, .error .incomplete =>
      let x := s.socks s.sock
      some { s.setSock s.sock { x with sent := x.sent.drop n } with rx := s.rx ++ x.sent.take n }
    | _, _ => none
  | .receive =>
    match s.pc with
    | .waiting op v request =>
      match parseMessage (s.rx.map Prod.snd) kMaxTx {} with
      | .ok m => some (s.takeReply op v request m.total)
      | .error .incomplete => none
      | .error _ => some s.onNetFault
    | _ => none
  | .fault =>
    match s.pc with
    | .waiting _ _ _ => some s.onNetFault
    | _ => none
  | .answer k bytes =>
    match s.socks k with
    | ⟨request :: asked, sent⟩ =>
      some { s.setSock k ⟨asked, sent ++ bytes.map (Prod.mk request)⟩ with
        answers := (request, bytes) :: s.answers }
    | _ => none
  | .skip k =>
    match s.socks k with
    | ⟨_ :: asked, sent⟩ => some (s.setSock k ⟨asked, sent⟩)
    | _ => none

def OneMessage (bytes : List UInt8) : Prop := ∀ m, parseMessage bytes kMaxTx {} = .ok m → m.total = bytes.length

def AnswersOnce (_ : Blocking) : BlockingAct → Prop
  | .answer _ bytes => OneMessage bytes
  | _ => True

instance decidableOneMessage (bytes : List UInt8) : Decidable (OneMessage bytes) :=
  match h : parseMessage bytes kMaxTx {} with
  | .ok m => decidable_of_iff (m.total = bytes.length)
      ⟨fun he _ hm => Except.ok.inj (h.symm.trans hm) ▸ he, fun hall => hall m h⟩
  | .error _ => .isTrue fun _ hm => absurd (h.symm.trans hm) (by rintro ⟨⟩)

instance decidableAnswersOnce (s : Blocking) : (a : BlockingAct) → Decidable (AnswersOnce s a)
  | .answer _ bytes => decidableOneMessage bytes
  | .call _ | .connect _ | .send _ _ | .arrive _ | .receive | .fault | .skip _ => .isTrue trivial

def Quiet (s : Blocking) : Prop := s.rx = [] ∧ s.socks s.sock = ⟨[], []⟩

def OnTheWay (s : Blocking) (request : ℕ) : Prop :=
  s.rx = [] ∧ s.socks s.sock = ⟨[request], []⟩ ∨ Quiet s ∨
    (s.socks s.sock).asked = [] ∧ ∃ bytes, (request, bytes) ∈ s.answers ∧ OneMessage bytes ∧
      s.rx ++ (s.socks s.sock).sent = bytes.map (Prod.mk request)

def OwnReply (answers : List (ℕ × List UInt8)) (a : Answered) : Prop :=
  ∃ bytes, (a.request, bytes) ∈ answers ∧ a.reply = bytes.map (Prod.mk a.request)

structure BlockingInv (s : Blocking) : Prop where
  quiet : s.connected = true → (∀ op v k, s.pc ≠ .waiting op v k) → Quiet s
  ready : ∀ op, s.pc = .ready op → s.connected = true
  waiting : ∀ op v k, s.pc = .waiting op v k → s.connected = true ∧ OnTheWay s k
  results : ∀ a ∈ s.results, OwnReply s.answers a

lemma whole_of_parse {k : ℕ} {rx sent : List (ℕ × UInt8)} {bytes : List UInt8} {m : Message}
    (hone : OneMessage bytes) (hcut : rx ++ sent = bytes.map (Prod.mk k))
    (hm : parseMessage (rx.map Prod.snd) kMaxTx {} = .ok m) :
    rx.take m.total = bytes.map (Prod.mk k) ∧ rx.drop m.total = [] ∧ sent = [] := by
  have hbytes : rx.map Prod.snd ++ sent.map Prod.snd = bytes := by
    rw [← List.map_append, hcut, List.map_map]
    exact List.map_id _
  have hwhole : parseMessage bytes kMaxTx {} = .ok m := by
    rw [← hbytes]
    exact Parser.parse_ok_append (p := parser kMaxTx {}) _ hm
  have htotal := hone m hwhole
  have hle : m.total ≤ (rx.map Prod.snd).length := (parser kMaxTx {}).size_le hm
  have hlen := congrArg List.length hcut
  rw [List.length_map] at hle
  rw [List.length_append, List.length_map] at hlen
  have hsent : sent = [] := List.eq_nil_of_length_eq_zero (by omega)
  rw [hsent, List.append_nil] at hcut
  exact ⟨by rw [List.take_of_length_le (by omega), hcut], List.drop_of_length_le (by omega), hsent⟩

namespace BlockingInv

variable {s t : Blocking}

lemma start : BlockingInv .start where
  quiet _ _ := ⟨rfl, rfl⟩
  ready _ h := BlockingPc.noConfusion h
  waiting _ _ _ h := BlockingPc.noConfusion h
  results _ h := absurd h List.not_mem_nil

lemma lost (hconn : t.connected = false) (hpc : t.pc = .idle) (hres : ∀ a ∈ t.results, OwnReply t.answers a) :
    BlockingInv t where
  quiet h _ := by
    rw [hconn] at h
    exact absurd h Bool.false_ne_true
  ready _ h := by
    rw [hpc] at h
    cases h
  waiting _ _ _ h := by
    rw [hpc] at h
    cases h
  results := hres

lemma of_quiet (hquiet : t.connected = true → Quiet t) (hready : ∀ op, t.pc = .ready op → t.connected = true)
    (hpc : ∀ op v k, t.pc ≠ .waiting op v k) (hres : ∀ a ∈ t.results, OwnReply t.answers a) : BlockingInv t where
  quiet h _ := hquiet h
  ready := hready
  waiting op v k h := absurd h (hpc op v k)
  results := hres

lemma send (h : BlockingInv s) {op : BlockingOp} {v : Verb} (hpc : s.pc = .ready op) :
    BlockingInv { s.ask with pc := .waiting op v s.requests, requests := s.requests + 1 } := by
  have hconn := h.ready op hpc
  obtain ⟨hrx, hsock⟩ := h.quiet hconn fun _ _ _ hw => BlockingPc.noConfusion (hpc.symm.trans hw)
  refine ⟨fun _ hno => absurd rfl (hno op v s.requests), by rintro _ ⟨⟩, ?_, h.results⟩
  rintro _ _ _ ⟨⟩
  refine ⟨hconn, Or.inl ⟨hrx, ?_⟩⟩
  simp only [Blocking.ask, hsock, Function.update_self, List.nil_append]

lemma arrive (h : BlockingInv s) {op : BlockingOp} {v : Verb} {k : ℕ} (n : ℕ) (hpc : s.pc = .waiting op v k) :
    BlockingInv { s.setSock s.sock { s.socks s.sock with sent := (s.socks s.sock).sent.drop n } with
      rx := s.rx ++ (s.socks s.sock).sent.take n } := by
  obtain ⟨hconn, hway⟩ := h.waiting op v k hpc
  refine ⟨fun _ hno => absurd hpc (hno op v k), fun op' h' => ?_, fun op' v' k' h' => ?_, h.results⟩
  · cases hpc.symm.trans h'
  · cases hpc.symm.trans h'
    refine ⟨hconn, ?_⟩
    simp only [OnTheWay, Quiet, Blocking.setSock, Function.update_self] at hway ⊢
    rcases hway with ⟨hrx, hsock⟩ | ⟨hrx, hsock⟩ | ⟨hasked, bytes, hmem, hone, hcut⟩
    · simp [hrx, hsock]
    · simp [hrx, hsock]
    · refine Or.inr (Or.inr ⟨hasked, bytes, hmem, hone, ?_⟩)
      rw [List.append_assoc, List.take_append_drop, hcut]

lemma serve (h : BlockingInv s) {k request : ℕ} {asked : List ℕ} {sent : List (ℕ × UInt8)}
    (hs : s.socks k = ⟨request :: asked, sent⟩) (more : List (ℕ × List UInt8)) (new : List (ℕ × UInt8))
    (hnew : new = [] ∨ ∃ bytes, (request, bytes) ∈ more ∧ OneMessage bytes ∧ new = bytes.map (Prod.mk request)) :
    BlockingInv { s.setSock k ⟨asked, sent ++ new⟩ with answers := more ++ s.answers } := by
  have hres : ∀ a ∈ s.results, OwnReply (more ++ s.answers) a := by
    intro a ha
    obtain ⟨bytes, hmem, heq⟩ := h.results a ha
    exact ⟨bytes, List.mem_append_right _ hmem, heq⟩
  by_cases hk : k = s.sock
  · subst hk
    refine ⟨fun hconn hno => ?_, h.ready, fun op v q hw => ?_, hres⟩
    · have hnil := (h.quiet hconn hno).2
      rw [hs] at hnil
      cases hnil
    · obtain ⟨hconn, ⟨hrx, hsock⟩ | ⟨-, hsock⟩ | ⟨hasked, -⟩⟩ := h.waiting op v q hw
      · cases hs.symm.trans hsock
        refine ⟨hconn, Or.inr ?_⟩
        simp only [Quiet, Blocking.setSock, Function.update_self, List.nil_append]
        rcases hnew with rfl | ⟨bytes, hmem, hone, rfl⟩
        · exact Or.inl ⟨hrx, rfl⟩
        · refine Or.inr ⟨trivial, bytes, List.mem_append_left _ hmem, hone, ?_⟩
          rw [hrx, List.nil_append]
      · cases hs.symm.trans hsock
      · rw [hs] at hasked
        cases hasked
  · have hsock : (Function.update s.socks k ⟨asked, sent ++ new⟩) s.sock = s.socks s.sock :=
      Function.update_of_ne (Ne.symm hk) _ _
    refine ⟨fun hconn hno => ?_, h.ready, fun op v q hw => ?_, hres⟩
    · obtain ⟨hrx, hq⟩ := h.quiet hconn hno
      exact ⟨hrx, hsock.trans hq⟩
    · obtain ⟨hconn, hway⟩ := h.waiting op v q hw
      refine ⟨hconn, ?_⟩
      simp only [OnTheWay, Quiet, Blocking.setSock, hsock] at hway ⊢
      rcases hway with hway | hway | ⟨hasked, bytes, hmem, hone, hcut⟩
      · exact Or.inl hway
      · exact Or.inr (Or.inl hway)
      · exact Or.inr (Or.inr ⟨hasked, bytes, List.mem_append_right _ hmem, hone, hcut⟩)

lemma proceed (hquiet : Quiet s) (hconn : s.connected = true) (hres : ∀ a ∈ s.results, OwnReply s.answers a)
    (op : BlockingOp) (v : Verb) (m : Message) : BlockingInv (s.proceed op v m) := by
  cases v with
  | helo term =>
    simp only [Blocking.proceed]
    split_ifs with hst
    · exact of_quiet (fun _ => hquiet) (fun _ _ => hconn) (by rintro _ _ _ ⟨⟩) hres
    · exact of_quiet (fun _ => hquiet) (fun _ _ => hconn) (by rintro _ _ _ ⟨⟩) hres
  | _ => exact of_quiet (fun _ => hquiet) (fun _ _ => hconn) (by rintro _ _ _ ⟨⟩) hres

lemma takeReply (h : BlockingInv s) {op : BlockingOp} {v : Verb} {k : ℕ} {m : Message}
    (hpc : s.pc = .waiting op v k) (hm : parseMessage (s.rx.map Prod.snd) kMaxTx {} = .ok m) :
    BlockingInv (s.takeReply op v k m.total) := by
  obtain ⟨hconn, hway⟩ := h.waiting op v k hpc
  have hne : s.rx ≠ [] := by
    intro hnil
    rw [hnil] at hm
    exact absurd ((parser kMaxTx {}).nil.symm.trans hm) (by rintro ⟨⟩)
  rcases hway with ⟨hrx, -⟩ | ⟨hrx, -⟩ | ⟨hasked, bytes, hmem, hone, hcut⟩
  · exact absurd hrx hne
  · exact absurd hrx hne
  · obtain ⟨htake, hdrop, hsent⟩ := whole_of_parse hone hcut hm
    simp only [Blocking.takeReply]
    cases v.take ((s.rx.take m.total).map Prod.snd) with
    | error e => exact lost rfl rfl h.results
    | ok m' =>
      apply proceed
      · refine ⟨hdrop, ?_⟩
        change s.socks s.sock = ⟨[], []⟩
        rw [← hasked, ← hsent]
      · exact hconn
      · exact List.forall_mem_cons.mpr ⟨⟨bytes, hmem, htake⟩, h.results⟩

lemma connect (h : BlockingInv s) {up : Bool} (ht : blockingStep s (.connect up) = some t) : BlockingInv t := by
  simp only [blockingStep] at ht
  split at ht
  · rename_i op hpc
    have hquiet : s.connected = true → Quiet s :=
      fun hconn => h.quiet hconn fun _ _ _ hw => BlockingPc.noConfusion (hpc.symm.trans hw)
    split_ifs at ht with hconn hup <;> obtain rfl := Option.some.inj ht
    · exact of_quiet hquiet (fun _ _ => hconn) (by rintro _ _ _ ⟨⟩) h.results
    · exact of_quiet (fun _ => ⟨rfl, Function.update_self _ _ _⟩) (fun _ _ => rfl) (by rintro _ _ _ ⟨⟩) h.results
    · exact of_quiet hquiet (by rintro _ ⟨⟩) (by rintro _ _ _ ⟨⟩) h.results
  · cases ht

lemma receive (h : BlockingInv s) (ht : blockingStep s .receive = some t) : BlockingInv t := by
  simp only [blockingStep] at ht
  split at ht
  · rename_i op v k hpc
    split at ht
    · rename_i m hm
      obtain rfl := Option.some.inj ht
      exact h.takeReply hpc hm
    · cases ht
    · obtain rfl := Option.some.inj ht
      exact lost rfl rfl h.results
  · cases ht

lemma step (h : BlockingInv s) {a : BlockingAct} (hok : AnswersOnce s a) (ht : blockingStep s a = some t) :
    BlockingInv t := by
  cases a with
  | call op =>
    simp only [blockingStep] at ht
    split at ht
    · rename_i hpc
      obtain rfl := Option.some.inj ht
      exact of_quiet (fun hconn => h.quiet hconn fun _ _ _ hw => BlockingPc.noConfusion (hpc.symm.trans hw))
        (by rintro _ ⟨⟩) (by rintro _ _ _ ⟨⟩) h.results
    · cases ht
  | connect up => exact h.connect ht
  | send sent reached =>
    simp only [blockingStep] at ht
    split at ht
    · rename_i op hpc
      split_ifs at ht <;> obtain rfl := Option.some.inj ht
      · exact h.send hpc
      · exact lost rfl rfl h.results
      · exact lost rfl rfl h.results
    · cases ht
  | arrive n =>
    simp only [blockingStep] at ht
    split at ht
    · rename_i op v k hpc _
      obtain rfl := Option.some.inj ht
      exact h.arrive n hpc
    · cases ht
  | receive => exact h.receive ht
  | fault =>
    simp only [blockingStep] at ht
    split at ht
    · obtain rfl := Option.some.inj ht
      exact lost rfl rfl h.results
    · cases ht
  | answer k bytes =>
    simp only [blockingStep] at ht
    split at ht
    · rename_i request asked sent hs
      obtain rfl := Option.some.inj ht
      exact h.serve hs [(request, bytes)] _ (Or.inr ⟨bytes, List.mem_singleton_self _, hok, rfl⟩)
    · cases ht
  | skip k =>
    simp only [blockingStep] at ht
    split at ht
    · rename_i request asked sent hs
      obtain rfl := Option.some.inj ht
      have hserve := h.serve hs [] [] (Or.inl rfl)
      rwa [List.append_nil] at hserve
    · cases ht

end BlockingInv

theorem blocking_replies_paired {s : Blocking} (h : Reach blockingStep AnswersOnce .start s) :
    ∀ a ∈ s.results, ∃ bytes, (a.request, bytes) ∈ s.answers ∧ a.reply = bytes.map (Prod.mk a.request) := by
  have hi : BlockingInv s := h.invariant .start fun _ _ _ hi hok ht => hi.step hok ht
  exact hi.results

theorem blocking_replies_paired_lateReply :
    ∃ s, Reach blockingStep AnswersOnce .start s ∧ s.results.map (fun a => (a.verb, a.request)) =
        [(.keepAlive, 3), (.helo 5, 2), (.helo 5, 0)] ∧
      ∀ a ∈ s.results, ∃ bytes, (a.request, bytes) ∈ s.answers ∧ a.reply = bytes.map (Prod.mk a.request) := by
  obtain ⟨s, hs, hv⟩ := Reach.exists_of_exec blockingStep AnswersOnce .start
    [.call (.keepAlive 5), .connect true, .send true true, .answer 1 ((statusReply .heloRsp Wire.ok).bytes 0),
      .arrive 8, .receive, .send true true, .fault, .answer 1 ((lsnReply .keepaliveRsp Wire.ok ⟨1, 1⟩).bytes 1),
      .call (.keepAlive 5), .connect true, .send true true, .answer 2 ((statusReply .heloRsp Wire.ok).bytes 0),
      .arrive 3, .arrive 5, .receive, .send true true,
      .answer 2 ((lsnReply .keepaliveRsp Wire.ok ⟨2, 2⟩).bytes 1), .arrive 24, .receive]
    (fun s => s.results.map (fun a => (a.verb, a.request)) = [(.keepAlive, 3), (.helo 5, 2), (.helo 5, 0)])
    (by decide +kernel)
  exact ⟨s, hs, of_decide_eq_true hv, blocking_replies_paired hs⟩

end CraftClient.Net

import CraftClient.Raft.Group

namespace CraftClient.Raft

open Replica

variable {ρ : Type} {n : ℕ} [DecidableEq ρ]

def EstablishPc.resolving : EstablishPc ρ n → Bool
  | .missing | .fetch _ _ _ | .decide _ _ _ | .proposeSync _ | .clearDone | .proposeLogin | .wait => true
  | .start | .sample | .probe _ | .asked _ _ _ | .check => false

def EstablishPc.weighing : EstablishPc ρ n → Bool
  | .fetch _ _ _ | .decide _ _ _ => true
  | _ => false

inductive Weighs (g : Group ρ n) (m : Fin n) (c : EstablishCall n) : EstablishPc ρ n → EstablishPc ρ n → Prop
  | starts (pc : EstablishPc ρ n) (lsns : List ℤ) : Weighs g m c pc (.fetch lsns (g.servers m).volume [])
  | passes (lsns : List ℤ) (q : Fin n) (rest : List (Fin n)) (responses : List (Fin n × List JournalSlot)) :
    Weighs g m c (.fetch lsns (q :: rest) responses) (.fetch lsns rest responses)
  | hears (lsns : List ℤ) (q : Fin n) (rest : List (Fin n)) (responses : List (Fin n × List JournalSlot)) : q ≠ m →
    Weighs g m c (.fetch lsns (q :: rest) responses)
      (.fetch lsns rest (responses ++ [(q, doFetch (g.servers q).mem lsns)]))
  | heard (lsns : List ℤ) (responses : List (Fin n × List JournalSlot)) :
    Weighs g m c (.fetch lsns [] responses) (.decide lsns responses ⟨[], -1⟩)
  | decides (lsn : ℤ) (lsns : List ℤ) (responses : List (Fin n × List JournalSlot)) (dec : Decided) :
    Weighs g m c (.decide (lsn :: lsns) responses dec) (.decide lsns responses
      (decideSlot (g.servers m).volume.length (responses.map Prod.snd) c.currentTerm (g.servers m).mem dec lsn).2)
  | leaves (pc pc' : EstablishPc ρ n) : pc'.weighing = false → Weighs g m c pc pc'

/-- How the `apply_login` of `m` moves in one step of the group. -/
inductive Moves (g : Group ρ n) (m : Fin n) : Establish ρ n → Establish ρ n → Prop
  | begins (l : Establish ρ n) (clientToken : UInt64) : l.isRunning = false →
    Moves g m l (.running { clientToken := clientToken, term := (g.servers m).nextTerm + 1 } .start)
  | leads (c : EstablishCall n) : Moves g m (.running c .start) (.running c .sample)
  | samples (c : EstablishCall n) : Moves g m (.running c .sample) (.running
    { c with
      currentTerm := (g.servers m).term
      resp := [(g.servers m).mem.peekLsns]
      members := (g.servers m).volume } (.probe (g.servers m).volume))
  | skips (c : EstablishCall n) (rest : List (Fin n)) :
    Moves g m (.running c (.probe (m :: rest))) (.running c (.probe rest))
  | asks (c : EstablishCall n) (k : ρ) (q : Fin n) (rest : List (Fin n)) : q ≠ m →
    g.requests k = none → (g.servers q).barrier.probes k = .idle →
    Moves g m (.running c (.probe (q :: rest))) (.running c (.asked k q rest))
  | answers (c : EstablishCall n) (k : ρ) (q : Fin n) (rest : List (Fin n)) (ret : LsnPair) :
    (g.servers q).barrier.probes k = .done ret →
    Moves g m (.running c (.asked k q rest)) (.running
      { c with resp := c.resp ++ [ret], answered := c.answered ++ [q] } (.probe rest))
  | silent (c : EstablishCall n) (k : ρ) (q : Fin n) (rest : List (Fin n)) :
    Moves g m (.running c (.asked k q rest)) (.running c (.probe rest))
  | polled (c : EstablishCall n) : Moves g m (.running c (.probe [])) (.running c .check)
  | quorum (c : EstablishCall n) : c.members.length / 2 < c.resp.length →
    Moves g m (.running c .check) (.running { c with rsCommitLsn := maxLastAppend c.resp } .missing)
  | resolves (c : EstablishCall n) (pc pc' : EstablishPc ρ n) : pc.resolving → pc'.resolving → Weighs g m c pc pc' →
    Moves g m (.running c pc) (.running c pc')
  | ends (c : EstablishCall n) (pc : EstablishPc ρ n) (res : Except ErrorCond (EstablishResult n)) :
    ((∃ e, res = .error e) ∨ (∃ hint, res = .ok (.redirect hint)) ∨
      (pc = .wait ∧ res = .ok (.established c.members c.rsCommitLsn))) →
    Moves g m (.running c pc) (.done c res)

def GroupAct.caller : GroupAct ρ n → Option (Fin n)
  | .go m _ | .ask m _ | .answer m | .noAnswer m | .fetch m _ | .propose m _ | .timeout m => some m
  | _ => none

structure OwnStep (g : Group ρ n) (m : Fin n) (l : Establish ρ n) (v : Server ρ n) : Prop where
  login : Moves g m l v.login
  fills : Fills (g.servers m).mem v.mem
  probes : v.barrier.probes = (g.servers m).barrier.probes
  committed : v.committed = (g.servers m).committed
  volume : v.volume = (g.servers m).volume
  nextTerm : v.nextTerm = (g.servers m).nextTerm
  sessionTerm : v.sessionTerm = (g.servers m).sessionTerm
  applied : v.applied = (g.servers m).applied

variable {g g' : Group ρ n} {m : Fin n}

omit [DecidableEq ρ] in
lemma servers_setServer (g : Group ρ n) (m q : Fin n) (v : Server ρ n) :
    (g.setServer m v).servers q = if q = m then v else g.servers q := Function.update_apply ..

def Group.answered (g : Group ρ n) (m : Fin n) : Establish ρ n → List UInt64
  | .done _ res => if answersOk res then (g.servers m).sessionTerm :: g.returned else g.returned
  | _ => g.returned

omit [DecidableEq ρ] in
lemma OwnStep.of_login {l l' : Establish ρ n} (h : Moves g m l l') :
    OwnStep g m l { g.servers m with login := l' } := ⟨h, .refl _, rfl, rfl, rfl, rfl, rfl, rfl⟩

omit [DecidableEq ρ] in
lemma OwnStep.of_ends {c : EstablishCall n} {pc : EstablishPc ρ n} {res : Except ErrorCond (EstablishResult n)}
    (h : Moves g m (.running c pc) (.done c res)) :
    ∃ v, OwnStep g m (.running c pc) v ∧
      g.finish m c res = { g.setServer m v with returned := g.answered m v.login } :=
  ⟨{ g.servers m with login := .done c res, sessionActive := answersOk res },
    ⟨h, .refl _, rfl, rfl, rfl, rfl, rfl, rfl⟩, rfl⟩

omit [DecidableEq ρ] in
lemma own_of_establishStep {leaderHint : Option (Fin n)} {c : EstablishCall n} {pc : EstablishPc ρ n}
    (hs : g.establishStep m leaderHint c pc = some g') :
    ∃ v, OwnStep g m (.running c pc) v ∧ g' = { g.setServer m v with returned := g.answered m v.login } := by
  cases pc with
  | start =>
    simp only [Group.establishStep] at hs
    split_ifs at hs
    · cases hs
      exact ⟨_, .of_login (.leads c), rfl⟩
    · cases hs
      exact OwnStep.of_ends (.ends c _ _ (.inr (.inl ⟨_, rfl⟩)))
  | sample =>
    cases hs
    exact ⟨_, .of_login (.samples c), rfl⟩
  | probe rest =>
    cases rest with
    | nil =>
      cases hs
      exact ⟨_, .of_login (.polled c), rfl⟩
    | cons q rest =>
      simp only [Group.establishStep] at hs
      split_ifs at hs with hq
      cases hs
      subst hq
      exact ⟨_, .of_login (.skips c rest), rfl⟩
  | check =>
    simp only [Group.establishStep] at hs
    split_ifs at hs with hq
    · cases hs
      exact OwnStep.of_ends (.ends c _ _ (.inl ⟨_, rfl⟩))
    · cases hs
      exact ⟨_, .of_login (.quorum c (not_le.mp hq)), rfl⟩
  | missing =>
    cases hs
    refine ⟨_, .of_login (.resolves c _ _ rfl ?_ ?_), rfl⟩
    · split_ifs <;> rfl
    · split_ifs
      · exact .leaves _ _ rfl
      · exact .starts _ _
  | fetch lsns rest responses =>
    cases rest with
    | nil =>
      cases hs
      exact ⟨_, .of_login (.resolves c _ _ rfl rfl (.heard lsns responses)), rfl⟩
    | cons q rest =>
      simp only [Group.establishStep] at hs
      split_ifs at hs
      cases hs
      exact ⟨_, .of_login (.resolves c _ _ rfl rfl (.passes lsns q rest responses)), rfl⟩
  | decide lsns responses dec =>
    cases lsns with
    | nil =>
      simp only [Group.establishStep] at hs
      split_ifs at hs
      · cases hs
        exact OwnStep.of_ends (.ends c _ _ (.inl ⟨_, rfl⟩))
      · cases hs
        exact ⟨_, .of_login (.resolves c _ _ rfl rfl (.leaves _ _ rfl)), rfl⟩
    | cons lsn lsns =>
      obtain rfl := Option.some.inj hs
      refine ⟨_, ?_, rfl⟩
      exact ⟨.resolves c _ _ rfl rfl (.decides lsn lsns responses dec), fills_decideSlot .., rfl, rfl, rfl, rfl, rfl,
        rfl⟩
  | clearDone =>
    cases hs
    refine ⟨_, ?_, rfl⟩
    exact ⟨.resolves c _ _ rfl rfl (.leaves _ _ rfl), .refl _, rfl, rfl, rfl, rfl, rfl, rfl⟩
  | wait =>
    simp only [Group.establishStep] at hs
    split_ifs at hs
    cases hs
    exact OwnStep.of_ends (.ends c _ _ (.inr (.inr ⟨rfl, rfl⟩)))
  | asked k q rest => cases hs
  | proposeSync emptySlots => cases hs
  | proposeLogin => cases hs

lemma own_of_groupStep {a : GroupAct ρ n} (ha : a.caller = some m) (hs : groupStep g a = some g') :
    ∃ c pc v, (g.servers m).login = .running c pc ∧ OwnStep g m (.running c pc) v ∧
      g' = { g.setServer m v with
        requests := g'.requests, pending := g'.pending, returned := g.answered m v.login } := by
  cases a with
  | go q leaderHint =>
    cases ha
    simp only [groupStep] at hs
    split at hs
    · rename_i c pc hl
      obtain ⟨v, hv, rfl⟩ := own_of_establishStep hs
      exact ⟨c, pc, v, hl, hv, rfl⟩
    · cases hs
  | ask q k =>
    cases ha
    simp only [groupStep] at hs
    split at hs
    · rename_i c q rest hl
      split at hs
      · rename_i hr hk
        split_ifs at hs with hq
        cases hs
        exact ⟨c, _, _, hl, .of_login (.asks c k q rest hq hr hk), rfl⟩
      · cases hs
    · cases hs
  | answer q =>
    cases ha
    simp only [groupStep] at hs
    split at hs
    · rename_i c k q rest hl
      split at hs
      · rename_i ret hk
        cases hs
        exact ⟨c, _, _, hl, .of_login (.answers c k q rest ret hk), rfl⟩
      · cases hs
    · cases hs
  | noAnswer q =>
    cases ha
    simp only [groupStep] at hs
    split at hs
    · rename_i c k q rest hl
      cases hs
      exact ⟨c, _, _, hl, .of_login (.silent c k q rest), rfl⟩
    · cases hs
  | fetch q reached =>
    cases ha
    simp only [groupStep] at hs
    split at hs
    · rename_i c lsns q rest responses hl
      split_ifs at hs with hq hr
      · cases hs
        exact ⟨c, _, _, hl, .of_login (.resolves c _ _ rfl rfl (.hears lsns q rest responses hq)), rfl⟩
      · cases hs
        exact ⟨c, _, _, hl, .of_login (.resolves c _ _ rfl rfl (.passes lsns q rest responses)), rfl⟩
    · cases hs
  | propose q refusal =>
    cases ha
    simp only [groupStep] at hs
    split at hs
    · rename_i c emptySlots hl
      cases hs
      exact ⟨c, _, _, hl, .of_login (.resolves c _ _ rfl rfl (.leaves _ _ rfl)), rfl⟩
    · rename_i c hl
      cases hs
      exact ⟨c, _, _, hl, .of_login (.resolves c _ _ rfl rfl (.leaves _ _ rfl)), rfl⟩
    · rename_i c emptySlots e hl
      cases hs
      obtain ⟨v, hv, he⟩ := OwnStep.of_ends (Moves.ends (g := g) (m := m) c (.proposeSync emptySlots) (.error e)
        (.inl ⟨_, rfl⟩))
      exact ⟨c, _, v, hl, hv, by rw [he]⟩
    · rename_i c e hl
      cases hs
      obtain ⟨v, hv, he⟩ := OwnStep.of_ends (Moves.ends (g := g) (m := m) c .proposeLogin (.error e)
        (.inl ⟨_, rfl⟩))
      exact ⟨c, _, v, hl, hv, by rw [he]⟩
    · cases hs
  | timeout q =>
    cases ha
    simp only [groupStep] at hs
    split at hs
    · rename_i c hl
      cases hs
      obtain ⟨v, hv, he⟩ := OwnStep.of_ends (Moves.ends (g := g) (m := m) c .wait (.error (.craft .internal))
        (.inl ⟨_, rfl⟩))
      exact ⟨c, _, v, hl, hv, by rw [he]⟩
    · cases hs
  | _ => cases ha

structure Aside (v v' : Server ρ n) : Prop where
  login : v'.login = v.login
  volume : v'.volume = v.volume
  nextTerm : v'.nextTerm = v.nextTerm
  sessionTerm : v'.sessionTerm = v.sessionTerm

omit [DecidableEq ρ] in
lemma Aside.refl (v : Server ρ n) : Aside v v := ⟨rfl, rfl, rfl, rfl⟩

inductive Turns (g : Group ρ n) (m : Fin n) : GroupAct ρ n → Server ρ n → Prop
  | fills (a : GroupAct ρ n) (v : Server ρ n) : Fills (g.servers m).mem v.mem →
    v.barrier.probes = (g.servers m).barrier.probes → v.committed = (g.servers m).committed →
    v.applied = (g.servers m).applied → Turns g m a v
  | local (a : BarrierAct ρ) (v : Server ρ n) : a.isLocal →
    barrierStep (g.servers m).barrier a = some v.barrier → v.applied = (g.servers m).applied →
    Turns g m (.barrier m a) v
  | serves (k : ρ) (term : UInt64) (v : Server ρ n) : g.requests k = some (m, term) →
    barrierStep (g.servers m).barrier (.probe k term true) = some v.barrier →
    v.applied = (g.servers m).applied → Turns g m (.serve k) v
  | login (msg : InternalLoginMsg) (v : Server ρ n) : g.log[(g.servers m).applied]? = some (.login msg) →
    barrierStep (g.servers m).barrier (.internalLogin { msg with rsCommitLsn := -1 }) = some v.barrier →
    v.applied = (g.servers m).applied + 1 → Turns g m (.apply m) v
  | sync (msg : SyncRSCommitLSNMsg) (v : Server ρ n) : g.log[(g.servers m).applied]? = some (.sync msg) →
    v.barrier = (g.servers m).barrier → v.applied = (g.servers m).applied + 1 → Turns g m (.apply m) v

lemma Turns.refl (g : Group ρ n) (m : Fin n) (a : GroupAct ρ n) : Turns g m a (g.servers m) :=
  .fills a _ (.refl _) rfl rfl rfl

lemma fills_doWrite {r r' : MemReplica} {hdr : ClientHdr} {d : ℤ} {addr len : UInt64} {bytes : Option (List UInt8)}
    {l : LsnPair} (h : r.doWrite hdr d addr len bytes = .ok (l, r')) : Fills r r' ∧ d ≤ r'.lastAppendLsn := by
  obtain ⟨-, -, -, rfl, -⟩ := MemReplica.doWrite_ok h
  have hf := fills_applyUpTo (r.append d (r.writeSlot hdr addr len bytes)) hdr.commitLsn
  exact ⟨⟨hf.term, (le_max_left _ _).trans hf.lastAppend⟩, (le_max_right _ _).trans hf.lastAppend⟩

lemma apply_of_groupStep {q : Fin n} (hs : groupStep g (.apply q) = some g') :
    ∃ v, g' = g.setServer q v ∧ Aside (g.servers q) v ∧ Turns g q (.apply q) v := by
  simp only [groupStep] at hs
  split at hs
  · rename_i e hw he
    cases e with
    | sync msg =>
      simp only [Group.applyEntry, RaftMsg.toJson, decodeEntry_sync, Option.some.injEq] at hs
      subst hs
      simp only [Group.setServer, Function.update_idem]
      exact ⟨_, rfl, ⟨rfl, rfl, rfl, rfl⟩, .sync msg _ he rfl rfl⟩
    | login msg =>
      simp only [Group.applyEntry, RaftMsg.toJson, decodeEntry_login] at hs
      obtain ⟨b, hb, rfl⟩ := Option.map_eq_some_iff.mp hs
      simp only [servers_setServer, if_pos] at hb
      simp only [Group.setServer, Function.update_idem, Function.update_self]
      exact ⟨_, rfl, ⟨rfl, rfl, rfl, rfl⟩, .login msg _ he hb rfl⟩
  · cases hs

lemma turns_of_groupStep {a : GroupAct ρ n} (hs : groupStep g a = some g') (hc : a.caller ≠ some m)
    (hb : ∀ clientToken, a ≠ .onLogin m clientToken) :
    Aside (g.servers m) (g'.servers m) ∧ Turns g m a (g'.servers m) := by
  have hsame : Aside (g.servers m) (g.servers m) ∧ Turns g m a (g.servers m) := ⟨.refl _, .refl g m a⟩
  -- what happens to one server is seen there alone
  have hset : ∀ q v, (q = m → Aside (g.servers m) v ∧ Turns g m a v) →
      Aside (g.servers m) ((g.setServer q v).servers m) ∧ Turns g m a ((g.setServer q v).servers m) := by
    intro q v hv
    rw [servers_setServer]
    split_ifs with hq
    · exact hv hq.symm
    · exact hsame
  cases a with
  | go q _ | ask q _ | answer q | noAnswer q | fetch q _ | propose q _ | timeout q =>
    obtain ⟨c, pc, v, -, -, he⟩ := own_of_groupStep rfl hs
    rw [he]
    exact hset q v fun hq => absurd (congrArg some hq) hc
  | onLogin q clientToken =>
    simp only [groupStep] at hs
    split_ifs at hs
    cases hs
    exact hset q _ fun hq => absurd (by rw [hq]) (hb clientToken)
  | lead q b =>
    cases hs
    refine hset q _ ?_
    rintro rfl
    exact ⟨⟨rfl, rfl, rfl, rfl⟩, .fills _ _ (.refl _) rfl rfl rfl⟩
  | serve k =>
    simp only [groupStep] at hs
    split at hs
    · rename_i q term hk
      obtain ⟨b, hp, rfl⟩ := Option.map_eq_some_iff.mp hs
      refine hset q _ ?_
      rintro rfl
      exact ⟨⟨rfl, rfl, rfl, rfl⟩, .serves k term _ hk hp rfl⟩
    · cases hs
  | barrier q a =>
    simp only [groupStep] at hs
    split_ifs at hs with hl
    obtain ⟨b, hp, rfl⟩ := Option.map_eq_some_iff.mp hs
    refine hset q _ ?_
    rintro rfl
    exact ⟨⟨rfl, rfl, rfl, rfl⟩, .local a _ hl hp rfl⟩
  | commit | lose =>
    simp only [groupStep] at hs
    split at hs
    · cases hs
      exact hsame
    · cases hs
  | apply q =>
    obtain ⟨v, rfl, ha, ht⟩ := apply_of_groupStep hs
    refine hset q v ?_
    rintro rfl
    exact ⟨ha, ht⟩
  | work q reached =>
    simp only [groupStep] at hs
    split at hs
    · cases hs
      refine hset q _ ?_
      rintro rfl
      exact ⟨⟨rfl, rfl, rfl, rfl⟩, .fills _ _ (fills_syncStep ..) rfl rfl rfl⟩
    · cases hs
  | write q hdr d addr len bytes =>
    simp only [groupStep] at hs
    split at hs
    · rename_i l mem hw
      cases hs
      refine hset q _ ?_
      rintro rfl
      exact ⟨⟨rfl, rfl, rfl, rfl⟩, .fills _ _ (fills_doWrite hw).1 rfl rfl rfl⟩
    · cases hs
      exact hsame

lemma server_of_groupStep {a : GroupAct ρ n} (m : Fin n) (hs : groupStep g a = some g') :
    (∃ c pc, (g.servers m).login = .running c pc ∧ OwnStep g m (.running c pc) (g'.servers m)) ∨
    (∃ clientToken, (g.servers m).login.isRunning = false ∧
      g'.servers m = (g.servers m).beginLogin clientToken) ∨
    (Aside (g.servers m) (g'.servers m) ∧ Turns g m a (g'.servers m)) := by
  by_cases hc : a.caller = some m
  · obtain ⟨c, pc, v, hl, hv, he⟩ := own_of_groupStep hc hs
    have hself : g'.servers m = v := by
      rw [he]
      exact (servers_setServer ..).trans (if_pos rfl)
    exact .inl ⟨c, pc, hl, hself ▸ hv⟩
  by_cases hb : ∃ clientToken, a = .onLogin m clientToken
  · obtain ⟨clientToken, rfl⟩ := hb
    simp only [groupStep] at hs
    split_ifs at hs with hr
    cases hs
    exact .inr (.inl ⟨clientToken, Bool.not_eq_true _ ▸ hr, (servers_setServer ..).trans (if_pos rfl)⟩)
  · exact .inr (.inr (turns_of_groupStep hs hc fun clientToken he => hb ⟨clientToken, he⟩))

inductive Wires (g g' : Group ρ n) : GroupAct ρ n → Prop
  | same (a : GroupAct ρ n) : g'.requests = g.requests → g'.pending = g.pending → g'.log = g.log → Wires g g' a
  | ask (m : Fin n) (k : ρ) (c : EstablishCall n) (q : Fin n) (rest : List (Fin n)) :
    (g.servers m).login = .running c (.probe (q :: rest)) → (g.servers q).barrier.probes k = .idle →
    g'.requests = Function.update g.requests k (some (q, c.term)) → g'.pending = g.pending → g'.log = g.log →
    (g'.servers m).login = .running c (.asked k q rest) → Wires g g' (.ask m k)
  | serve (k : ρ) : g'.requests = Function.update g.requests k none → g'.pending = g.pending → g'.log = g.log →
    Wires g g' (.serve k)
  | proposeSync (m : Fin n) (c : EstablishCall n) (emptySlots : List ℤ) :
    (g.servers m).login = .running c (.proposeSync emptySlots) → g'.requests = g.requests →
    g'.pending = g.pending ++ [.sync ⟨c.rsCommitLsn, c.clientToken, emptySlots⟩] → g'.log = g.log →
    Wires g g' (.propose m none)
  | proposeLogin (m : Fin n) (c : EstablishCall n) : (g.servers m).login = .running c .proposeLogin →
    g'.requests = g.requests → g'.pending = g.pending ++ [.login ⟨c.clientToken, c.term, c.rsCommitLsn⟩] →
    g'.log = g.log → Wires g g' (.propose m none)
  | commit (e : RaftMsg) : g'.requests = g.requests → g.pending = e :: g'.pending → g'.log = g.log ++ [e] →
    Wires g g' .commit
  | lose (e : RaftMsg) : g'.requests = g.requests → g.pending = e :: g'.pending → g'.log = g.log →
    Wires g g' .lose

lemma wires_of_groupStep {a : GroupAct ρ n} (hs : groupStep g a = some g') : Wires g g' a := by
  cases a with
  | lead q b =>
    cases hs
    exact .same _ rfl rfl rfl
  | onLogin q clientToken =>
    simp only [groupStep] at hs
    split_ifs at hs
    cases hs
    exact .same _ rfl rfl rfl
  | go q leaderHint =>
    simp only [groupStep] at hs
    split at hs
    · obtain ⟨v, -, rfl⟩ := own_of_establishStep hs
      exact .same _ rfl rfl rfl
    · cases hs
  | ask q k =>
    simp only [groupStep] at hs
    split at hs
    · rename_i c p rest hl
      split at hs
      · rename_i hr hk
        split_ifs at hs
        cases hs
        exact .ask q k c p rest hl hk rfl rfl rfl (by simp [Group.setLogin, servers_setServer])
      · cases hs
    · cases hs
  | answer q =>
    simp only [groupStep] at hs
    split at hs
    · split at hs
      · cases hs
        exact .same _ rfl rfl rfl
      · cases hs
    · cases hs
  | fetch q reached =>
    simp only [groupStep] at hs
    split at hs
    · split_ifs at hs
      all_goals
        cases hs
        exact .same _ rfl rfl rfl
    · cases hs
  | propose q refusal =>
    simp only [groupStep] at hs
    split at hs
    · rename_i c emptySlots hl
      cases hs
      exact .proposeSync q c emptySlots hl rfl rfl rfl
    · rename_i c hl
      cases hs
      exact .proposeLogin q c hl rfl rfl rfl
    · cases hs
      exact .same _ rfl rfl rfl
    · cases hs
      exact .same _ rfl rfl rfl
    · cases hs
  | noAnswer q | timeout q =>
    simp only [groupStep] at hs
    split at hs
    · cases hs
      exact .same _ rfl rfl rfl
    · cases hs
  | serve k =>
    simp only [groupStep] at hs
    split at hs
    · obtain ⟨b, -, rfl⟩ := Option.map_eq_some_iff.mp hs
      exact .serve k rfl rfl rfl
    · cases hs
  | barrier q a =>
    simp only [groupStep] at hs
    split_ifs at hs
    obtain ⟨b, -, rfl⟩ := Option.map_eq_some_iff.mp hs
    exact .same _ rfl rfl rfl
  | commit =>
    simp only [groupStep] at hs
    split at hs
    · rename_i e rest hp
      cases hs
      exact .commit e rfl hp rfl
    · cases hs
  | lose =>
    simp only [groupStep] at hs
    split at hs
    · rename_i e rest hp
      cases hs
      exact .lose e rfl hp rfl
    · cases hs
  | apply q =>
    obtain ⟨v, rfl, -⟩ := apply_of_groupStep hs
    exact .same _ rfl rfl rfl
  | work q reached =>
    simp only [groupStep] at hs
    split at hs
    · cases hs
      exact .same _ rfl rfl rfl
    · cases hs
  | write q hdr d addr len bytes =>
    simp only [groupStep] at hs
    split at hs
    all_goals
      cases hs
      exact .same _ rfl rfl rfl

section Replica

def ProbePc.ret? : ProbePc → Option LsnPair
  | .idle => none
  | .unlocked ret _ | .armed ret _ | .done ret => some ret

structure LocalStep (a : BarrierAct ρ) (b b' : Barrier ρ) : Prop where
  committed : b'.committed = b.committed
  ret : ∀ k, (b'.probes k).ret? = (b.probes k).ret?
  lastAppend : b'.replica.mem.lastAppendLsn = b.replica.mem.lastAppendLsn
  term : b'.term = b.term ∨ ∃ cb w, a = .callback ∧ b.replica.watchdog.call = some (cb, w) ∧ cb.term = b.term ∧
    b'.term = cb.currentTerm

lemma localStep_of_barrierStep {a : BarrierAct ρ} {b b' : Barrier ρ} (ha : a.isLocal)
    (hs : barrierStep b a = some b') : LocalStep a b b' := by
  cases a with
  | probe i term isLogin | internalLogin msg => cases ha
  | arm i =>
    simp only [barrierStep] at hs
    split at hs
    · rename_i ret cb hi
      cases hs
      refine ⟨rfl, fun k => ?_, rfl, .inl rfl⟩
      simp only [setProbe_probes]
      split_ifs with hk
      · rw [hk, hi]
        rfl
      · rfl
    · cases hs
  | record i =>
    simp only [barrierStep] at hs
    split at hs
    · rename_i ret id hi
      cases hs
      refine ⟨rfl, fun k => ?_, rfl, .inl rfl⟩
      simp only [setProbe_probes]
      split_ifs with hk
      · rw [hk, hi]
        rfl
      · rfl
    · cases hs
  | tick seconds =>
    cases hs
    exact ⟨rfl, fun _ => rfl, rfl, .inl rfl⟩
  | expire entry =>
    obtain ⟨w, -, rfl⟩ := Option.map_eq_some_iff.mp hs
    exact ⟨rfl, fun _ => rfl, rfl, .inl rfl⟩
  | relock =>
    obtain ⟨w, -, rfl⟩ := Option.map_eq_some_iff.mp hs
    exact ⟨rfl, fun _ => rfl, rfl, .inl rfl⟩
  | callback =>
    obtain ⟨⟨cb, w⟩, hc, rfl⟩ := Option.map_eq_some_iff.mp hs
    by_cases ht : b.term = cb.term
    · have hr : ((b.setWatchdog w).restore cb).replica = (b.setWatchdog w).replica.setTerm cb.currentTerm :=
        if_pos ht
      exact ⟨rfl, fun _ => rfl, by rw [hr]; rfl, .inr ⟨cb, w, rfl, hc, ht.symm, by rw [Barrier.term, hr]; rfl⟩⟩
    · have hr : ((b.setWatchdog w).restore cb).replica = (b.setWatchdog w).replica := if_neg ht
      exact ⟨rfl, fun _ => rfl, by rw [hr]; rfl, .inl (by rw [Barrier.term, hr]; rfl)⟩

inductive TermStep (g : Group ρ n) (m : Fin n) : GroupAct ρ n → UInt64 → Prop
  | same (a : GroupAct ρ n) : TermStep g m a (g.servers m).term
  | probe (k : ρ) (term : UInt64) : g.requests k = some (m, term) → TermStep g m (.serve k) term
  | login (msg : InternalLoginMsg) : g.log[(g.servers m).applied]? = some (.login msg) →
    TermStep g m (.apply m) msg.term
  | restore (cb : Restore) (w : Watchdog Restore) :
    (g.servers m).barrier.replica.watchdog.call = some (cb, w) → cb.term = (g.servers m).term →
    TermStep g m (.barrier m .callback) cb.currentTerm

inductive CommitStep (g : Group ρ n) (m : Fin n) : GroupAct ρ n → UInt64 → ℕ → Prop
  | same (a : GroupAct ρ n) : CommitStep g m a (g.servers m).committed (g.servers m).applied
  | login (msg : InternalLoginMsg) : g.log[(g.servers m).applied]? = some (.login msg) →
    CommitStep g m (.apply m) msg.term ((g.servers m).applied + 1)
  | sync (msg : SyncRSCommitLSNMsg) : g.log[(g.servers m).applied]? = some (.sync msg) →
    CommitStep g m (.apply m) (g.servers m).committed ((g.servers m).applied + 1)

structure ReplicaStep (g : Group ρ n) (m : Fin n) (a : GroupAct ρ n) (v : Server ρ n) : Prop where
  lastAppend : (g.servers m).mem.lastAppendLsn ≤ v.mem.lastAppendLsn
  term : TermStep g m a v.term
  commit : CommitStep g m a v.committed v.applied
  ret : ∀ k ret, (v.barrier.probes k).ret? = some ret → ((g.servers m).barrier.probes k).ret? = some ret ∨
    ∃ term, a = .serve k ∧ g.requests k = some (m, term) ∧ v.term = term ∧ ret = (g.servers m).mem.peekLsns

variable {g g' : Group ρ n} {m : Fin n}

omit [DecidableEq ρ] in
lemma ReplicaStep.of_fills {a : GroupAct ρ n} {v : Server ρ n} (hf : Fills (g.servers m).mem v.mem)
    (hp : v.barrier.probes = (g.servers m).barrier.probes) (hc : v.committed = (g.servers m).committed)
    (ha : v.applied = (g.servers m).applied) : ReplicaStep g m a v where
  lastAppend := hf.lastAppend
  term := by
    have ht : v.term = (g.servers m).term := hf.term
    rw [ht]
    exact .same a
  commit := by
    rw [hc, ha]
    exact .same a
  ret k ret hk := .inl (hp ▸ hk)

lemma ReplicaStep.of_serves {k : ρ} {term : UInt64} {v : Server ρ n} (hk : g.requests k = some (m, term))
    (hb : barrierStep (g.servers m).barrier (.probe k term true) = some v.barrier)
    (ha : v.applied = (g.servers m).applied) : ReplicaStep g m (.serve k) v := by
  simp only [barrierStep, if_true] at hb
  split_ifs at hb
  have hv := (Option.some.inj hb).symm
  have hmem : v.mem = { (g.servers m).mem with term := term } := by
    rw [Server.mem, hv]
    exact RaftReplica.cancelPending_mem _
  have hterm : v.term = term := congrArg MemReplica.term hmem
  refine ⟨by rw [hmem], by rw [hterm]; exact .probe k term hk, ?_, ?_⟩
  · rw [ha, Server.committed, hv]
    exact .same _
  · intro k' ret hr
    rw [hv] at hr
    simp only [setProbe_probes] at hr
    split_ifs at hr with hk'
    · cases hr
      exact .inr ⟨term, by rw [hk'], hk' ▸ hk, hterm, rfl⟩
    · exact .inl hr

lemma ReplicaStep.of_login {msg : InternalLoginMsg} {v : Server ρ n}
    (he : g.log[(g.servers m).applied]? = some (.login msg))
    (hb : barrierStep (g.servers m).barrier (.internalLogin { msg with rsCommitLsn := -1 }) = some v.barrier)
    (ha : v.applied = (g.servers m).applied + 1) : ReplicaStep g m (.apply m) v := by
  have hv := (Option.some.inj hb).symm
  have hterm : v.term = msg.term := by
    rw [Server.term, Barrier.term, hv]
    exact RaftReplica.internalLogin_term _ _
  refine ⟨?_, by rw [hterm]; exact .login msg he, ?_, ?_⟩
  · have hmem : v.mem = (g.servers m).mem.coldApplyLogin msg.clientToken msg.term := by
      rw [Server.mem, hv]
      simp [RaftReplica.internalLogin, Server.mem]
    rw [hmem]
    exact le_rfl
  · rw [ha, Server.committed, hv]
    exact .login msg he
  · intro k ret hr
    rw [hv] at hr
    exact .inl hr

lemma replicaStep_of_groupStep {a : GroupAct ρ n} (m : Fin n) (hs : groupStep g a = some g') :
    ReplicaStep g m a (g'.servers m) := by
  obtain ⟨c, pc, -, hv⟩ | ⟨clientToken, -, hv⟩ | ⟨-, hv⟩ := server_of_groupStep m hs
  · exact .of_fills hv.fills hv.probes hv.committed hv.applied
  · rw [hv]
    exact .of_fills (.refl _) rfl rfl rfl
  · cases hv with
    | fills _ _ hf hp hcom ha => exact .of_fills hf hp hcom ha
    | «local» a _ hl hstep ha =>
      have h := localStep_of_barrierStep hl hstep
      refine ⟨h.lastAppend.ge, ?_, ?_, fun k ret hk => .inl (h.ret k ▸ hk)⟩
      · obtain ht | ⟨cb, w, rfl, hcall, ht, hcur⟩ := h.term
        · rw [Server.term, ht]
          exact .same _
        · rw [Server.term, hcur]
          exact .restore cb w hcall ht
      · rw [ha, Server.committed, h.committed]
        exact .same _
    | serves k term _ hk hstep ha => exact .of_serves hk hstep ha
    | login msg _ he hstep ha => exact .of_login he hstep ha
    | sync msg _ he hbar ha =>
      refine ⟨?_, ?_, ?_, ?_⟩
      · rw [Server.mem, Server.mem, hbar]
      · rw [Server.term, hbar]
        exact .same _
      · rw [ha, Server.committed, hbar]
        exact .sync msg he
      · intro k ret hk
        exact .inl (hbar ▸ hk)

def GroupAct.isQuiet : GroupAct ρ n → Bool
  | .lead _ _ | .serve _ | .barrier _ _ | .commit | .lose | .apply _ | .work _ _ => true
  | _ => false

structure SameHistory (g g' : Group ρ n) : Prop where
  acks : g'.acks = g.acks
  returned : g'.returned = g.returned

lemma sameHistory_of_groupStep {a : GroupAct ρ n} (ha : a.isQuiet) (hs : groupStep g a = some g') :
    SameHistory g g' := by
  cases a with
  | lead q b =>
    cases hs
    exact ⟨rfl, rfl⟩
  | serve k =>
    simp only [groupStep] at hs
    split at hs
    · obtain ⟨b, -, rfl⟩ := Option.map_eq_some_iff.mp hs
      exact ⟨rfl, rfl⟩
    · cases hs
  | barrier q a =>
    simp only [groupStep] at hs
    split_ifs at hs
    obtain ⟨b, -, rfl⟩ := Option.map_eq_some_iff.mp hs
    exact ⟨rfl, rfl⟩
  | commit | lose | work q reached =>
    simp only [groupStep] at hs
    split at hs
    · cases hs
      exact ⟨rfl, rfl⟩
    · cases hs
  | apply q =>
    obtain ⟨v, rfl, -⟩ := apply_of_groupStep hs
    exact ⟨rfl, rfl⟩
  | _ => cases ha

lemma mem_acks_of_groupStep {a : GroupAct ρ n} (hs : groupStep g a = some g') {t : UInt64} {d : ℤ}
    (h : (t, d) ∈ g'.acks m) : (t, d) ∈ g.acks m ∨
      ∃ hdr addr len bytes, a = .write m hdr d addr len bytes ∧ hdr.term = t ∧ (g.servers m).term = t ∧
        d ≤ (g'.servers m).mem.lastAppendLsn := by
  cases a with
  | write q hdr e addr len bytes =>
    simp only [groupStep] at hs
    split at hs
    · rename_i l mem hw
      cases hs
      simp only [Function.update_apply] at h
      split_ifs at h with hq
      · subst hq
        rcases List.mem_cons.mp h with h | h
        · cases h
          refine .inr ⟨hdr, addr, len, bytes, rfl, rfl, (MemReplica.doWrite_ok hw).2.1.symm, ?_⟩
          simp only [servers_setServer, if_pos]
          exact (fills_doWrite hw).2
        · exact .inl h
      · exact .inl h
    · cases hs
      exact .inl h
  | go q _ | ask q _ | answer q | noAnswer q | fetch q _ | propose q _ | timeout q =>
    obtain ⟨c, pc, v, -, -, he⟩ := own_of_groupStep rfl hs
    rw [he] at h
    exact .inl h
  | onLogin q clientToken =>
    simp only [groupStep] at hs
    split_ifs at hs
    cases hs
    exact .inl h
  | _ =>
    rw [(sameHistory_of_groupStep rfl hs).acks] at h
    exact .inl h

end Replica

section Entries

def Group.entries (g : Group ρ n) (m : Fin n) : List RaftMsg := g.log.drop (g.servers m).applied ++ g.pending

inductive Proposed (g : Group ρ n) : RaftMsg → Prop
  | sync (q : Fin n) (c : EstablishCall n) (emptySlots : List ℤ) :
    (g.servers q).login = .running c (.proposeSync emptySlots) →
    Proposed g (.sync ⟨c.rsCommitLsn, c.clientToken, emptySlots⟩)
  | login (q : Fin n) (c : EstablishCall n) : (g.servers q).login = .running c .proposeLogin →
    Proposed g (.login ⟨c.clientToken, c.term, c.rsCommitLsn⟩)

variable {g g' : Group ρ n} {m : Fin n}

omit [DecidableEq ρ] in
lemma entries_eq_cons {e : RaftMsg} (h : g.log[(g.servers m).applied]? = some e) :
    g.entries m = e :: (g.log.drop ((g.servers m).applied + 1) ++ g.pending) := by
  obtain ⟨hlt, he⟩ := List.getElem?_eq_some_iff.mp h
  rw [Group.entries, List.drop_eq_getElem_cons hlt, he, List.cons_append]

lemma entries_of_groupStep {a : GroupAct ρ n} (m : Fin n) (hs : groupStep g a = some g') :
    (g'.entries m).Sublist (g.entries m) ∨ ∃ e, Proposed g e ∧ g'.entries m = g.entries m ++ [e] := by
  have happ := (replicaStep_of_groupStep m hs).commit
  have hle : (g.servers m).applied ≤ (g'.servers m).applied := by
    generalize (g'.servers m).applied = k, (g'.servers m).committed = t at happ
    cases happ with
    | same => exact le_rfl
    | login | sync => exact Nat.le_succ _
  have hdrop : (g.log.drop (g'.servers m).applied).Sublist (g.log.drop (g.servers m).applied) :=
    List.drop_sublist_drop_left _ hle
  have hsame : (∀ q, a ≠ .apply q) → (g'.servers m).applied = (g.servers m).applied := by
    intro ha
    generalize (g'.servers m).applied = k, (g'.servers m).committed = t at happ
    cases happ with
    | same => rfl
    | login | sync => exact absurd rfl (ha m)
  simp only [Group.entries]
  cases wires_of_groupStep hs with
  | same _ hr hp hlog =>
    rw [hp, hlog]
    exact .inl (hdrop.append_right _)
  | ask q k c p rest hl hk hr hp hlog =>
    rw [hp, hlog]
    exact .inl (hdrop.append_right _)
  | serve k hr hp hlog =>
    rw [hp, hlog]
    exact .inl (hdrop.append_right _)
  | proposeSync q c emptySlots hl hr hp hlog =>
    rw [hp, hlog, hsame (by rintro _ ⟨⟩)]
    exact .inr ⟨_, .sync q c emptySlots hl, (List.append_assoc ..).symm⟩
  | proposeLogin q c hl hr hp hlog =>
    rw [hp, hlog, hsame (by rintro _ ⟨⟩)]
    exact .inr ⟨_, .login q c hl, (List.append_assoc ..).symm⟩
  | commit e hr hp hlog =>
    left
    rw [hp, hlog, hsame (by rintro _ ⟨⟩), List.drop_append, List.append_assoc]
    exact List.Sublist.append_left ((List.drop_sublist _ [e]).append_right _) _
  | lose e hr hp hlog =>
    left
    rw [hp, hlog]
    exact hdrop.append (List.sublist_cons_self _ _)

end Entries

end CraftClient.Raft

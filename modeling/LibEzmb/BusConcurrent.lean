import LibEzmb.BaseRun
import LibEzmb.BaseSlots
import LibEzmb.BusSend

/-! Calls of `e_common_send` made on one device from several threads. Each of the two sends of a call
is one step on the shared north socket, and nothing keeps the two together. -/

open CBytes Multipart Runs Slots

namespace LibEzmb

/-- Where a call of `e_common_send` is: before its topic frame, before its payload frame, or back
with its result. -/
inductive SendPlace where
  | topic
  | payload
  | returned (rc : Int)
  deriving DecidableEq, Repr

/-- One call and the message it was given. -/
structure Sending where
  msg : Option Bytes
  place : SendPlace
  deriving DecidableEq, Repr

/-- The north socket, the calls that were made so far and the messages that left the socket. -/
structure SharedSocket where
  sock : OutSocket
  calls : List Sending
  sent : List Msg
  deriving DecidableEq, Repr

/-- A thread calls `e_common_send`, or a call takes its next step, in which its send succeeds or
fails. -/
inductive SendLabel where
  | call (msg : Option Bytes)
  | step (k : Nat) (ok : Bool)
  deriving DecidableEq, Repr

/-- The next step of a call, up to and with its next `zmq_send`; `none` once it is back. -/
def Sending.next (d : EDevice) (ok : Bool) (sock : OutSocket) (c : Sending) :
    Option (OutSocket × SendPlace × List Msg) :=
  match c.place, c.msg with
  | .topic, none => some (sock, .returned (-1), [])
  | .topic, some msg =>
      if msg.length = 0 then some (sock, .returned (-1), [])
      else
        let (sock, rc, out) := zmqSend sock d.sendTopic.bytes true ok
        some (sock, if rc < 0 then .returned (-1) else .payload, out)
  | .payload, some msg =>
      let (sock, rc, out) := zmqSend sock msg false ok
      some (sock, .returned (if rc < 0 then -1 else rc), out)
  | .payload, none => none
  | .returned _, _ => none

namespace SharedSocket

def start : SharedSocket := ⟨⟨[]⟩, [], []⟩

def Step (d : EDevice) (s : SharedSocket) : SendLabel → SharedSocket → Prop
  | .call msg, t => t = { s with calls := s.calls ++ [⟨msg, .topic⟩] }
  | .step k ok, t => ∃ c sock place out, s.calls[k]? = some c ∧
      c.next d ok s.sock = some (sock, place, out) ∧
      t = ⟨sock, s.calls.set k { c with place := place }, s.sent ++ out⟩

end SharedSocket

theorem Sending.next_topic (d : EDevice) (sock : OutSocket) {msg : Bytes} (hmsg : msg ≠ []) :
    Sending.next d true sock ⟨some msg, .topic⟩ =
      some (⟨sock.pending ++ [d.sendTopic.bytes]⟩, .payload, []) := by
  have hlen : msg.length ≠ 0 := fun h => hmsg (List.eq_nil_of_length_eq_zero h)
  have hpos (n : Nat) : ¬(n : Int) < 0 := Int.not_lt.mpr (Int.natCast_nonneg n)
  simp only [Sending.next, if_neg hlen, zmqSend_more, hpos, if_false]

theorem Sending.next_payload (d : EDevice) (sock : OutSocket) (msg : Bytes) :
    Sending.next d true sock ⟨some msg, .payload⟩ =
      some (⟨[]⟩, .returned (min msg.length intMax : Nat), [sock.pending ++ [msg]]) := by
  have hpos (n : Nat) : ¬(n : Int) < 0 := Int.not_lt.mpr (Int.natCast_nonneg n)
  simp only [Sending.next, zmqSend_last, hpos, if_false]

/-- A call that no other thread interrupts is the call in one piece. -/
theorem eCommonSend_run (d : EDevice) (s : SharedSocket) (msg : Option Bytes)
    (okTopic okPayload : Bool) {k : Nat} (hcall : s.calls[k]? = some ⟨msg, .topic⟩) :
    ∃ ls, (∀ l ∈ ls, l = .step k okTopic ∨ l = .step k okPayload) ∧
      Run (SharedSocket.Step d) s ls ⟨(eCommonSend (some d) msg okTopic okPayload s.sock).1,
        s.calls.set k ⟨msg, .returned (eCommonSend (some d) msg okTopic okPayload s.sock).2.1⟩,
        s.sent ++ (eCommonSend (some d) msg okTopic okPayload s.sock).2.2⟩ := by
  by_cases hmsg : msg = none ∨ msg = some []
  · rw [eCommonSend_refused d s.sock hmsg]
    refine ⟨[.step k okTopic], by simp, .cons ⟨_, s.sock, .returned (-1), [], hcall, ?_, rfl⟩
      (.nil _)⟩
    rcases hmsg with rfl | rfl <;> rfl
  · obtain ⟨hnone, hempty⟩ := not_or.mp hmsg
    obtain ⟨m, rfl⟩ := Option.ne_none_iff_exists'.mp hnone
    have hne : m ≠ [] := fun h => hempty (by rw [h])
    rw [eCommonSend_some d s.sock hne]
    cases okTopic with
    | false =>
        refine ⟨[.step k false], by simp, .cons ⟨_, s.sock, .returned (-1), [], hcall, ?_, rfl⟩
          (.nil _)⟩
        simp [Sending.next, hne]
    | true =>
        let mid : SharedSocket := ⟨⟨s.sock.pending ++ [d.sendTopic.bytes]⟩,
          s.calls.set k ⟨some m, .payload⟩, s.sent ++ []⟩
        have hfirst : SharedSocket.Step d s (.step k true) mid :=
          ⟨_, _, _, _, hcall, Sending.next_topic d s.sock hne, rfl⟩
        have hmid : mid.calls[k]? = some ⟨some m, .payload⟩ :=
          List.getElem?_set_self (List.getElem?_eq_some_iff.mp hcall).1
        cases okPayload with
        | false =>
            refine ⟨[.step k true, .step k false], by simp, .cons hfirst
              (.cons ⟨_, mid.sock, .returned (-1), [], hmid, rfl, ?_⟩ (.nil _))⟩
            simp [mid]
        | true =>
            refine ⟨[.step k true, .step k true], by simp, .cons hfirst
              (.cons ⟨_, ⟨[]⟩, .returned (min m.length intMax : Nat),
                [mid.sock.pending ++ [m]], hmid, Sending.next_payload d mid.sock m, ?_⟩ (.nil _))⟩
            simp [mid]

/-- A call with nothing to send. -/
def Sending.Refused (c : Sending) : Prop := c.msg = none ∨ c.msg = some []

def Sending.hasReturned (c : Sending) : Bool :=
  match c.place with
  | .returned _ => true
  | _ => false

/-- The message a call is to contribute. -/
def Sending.pair (d : EDevice) (c : Sending) : Option Msg :=
  c.msg.map fun msg => [d.sendTopic.bytes, msg]

/-- No send of the step fails. -/
def SendLabel.Succeeds : SendLabel → Prop
  | .call _ => True
  | .step _ ok => ok = true

namespace SharedSocket

/-- The messages that left the socket are the pairs of the calls that are back, one for each. -/
def Unmixed (d : EDevice) (s : SharedSocket) : Prop :=
  (s.sent.map some).Perm ((s.calls.filter Sending.hasReturned).map (Sending.pair d))

/-- A call is made with a message, and it sends its topic frame only while no other call is between
its two frames. -/
def Apart (s : SharedSocket) : SendLabel → Prop
  | .call msg => msg ≠ none ∧ msg ≠ some []
  | .step k _ => ∀ c, s.calls[k]? = some c → c.place = .topic →
      ∀ c' ∈ s.calls, c'.place ≠ .payload

def ApartStep (d : EDevice) (s : SharedSocket) (l : SendLabel) (t : SharedSocket) : Prop :=
  s.Apart l ∧ Step d s l t

variable {d : EDevice} {s t : SharedSocket} {l : SendLabel} {ls : List SendLabel}

/-- What a step does when no send fails: a call more, one that is refused, a topic frame, or a
payload frame that completes a message. -/
inductive Did (d : EDevice) (s : SharedSocket) : SendLabel → SharedSocket → Prop where
  | called (msg : Option Bytes) : Did d s (.call msg) { s with calls := s.calls ++ [⟨msg, .topic⟩] }
  | refused {k : Nat} {c : Sending} {pre post : List Sending} (hplace : c.place = .topic)
      (hrefused : c.Refused) (hcalls : s.calls = pre ++ c :: post) (hk : s.calls[k]? = some c) :
      Did d s (.step k true) { s with calls := pre ++ { c with place := .returned (-1) } :: post }
  | topic {k : Nat} {c : Sending} {pre post : List Sending} (hplace : c.place = .topic)
      (hmsg : ¬c.Refused) (hcalls : s.calls = pre ++ c :: post) (hk : s.calls[k]? = some c) :
      Did d s (.step k true) ⟨⟨s.sock.pending ++ [d.sendTopic.bytes]⟩,
        pre ++ { c with place := .payload } :: post, s.sent⟩
  | payload {k : Nat} {c : Sending} {msg : Bytes} {pre post : List Sending}
      (hplace : c.place = .payload) (hmsg : c.msg = some msg) (hcalls : s.calls = pre ++ c :: post)
      (hk : s.calls[k]? = some c) (rc : Int) : Did d s (.step k true)
        ⟨⟨[]⟩, pre ++ { c with place := .returned rc } :: post, s.sent ++ [s.sock.pending ++ [msg]]⟩

theorem Step.did (hstep : Step d s l t) (hok : l.Succeeds) : Did d s l t := by
  cases l with
  | call msg =>
      cases hstep
      exact .called msg
  | step k ok =>
      cases hok
      obtain ⟨⟨msg, place⟩, sock, place', out, hc, hnext, rfl⟩ := hstep
      obtain ⟨pre, post, hcalls, hset⟩ := set_split hc (⟨msg, place'⟩ : Sending)
      rw [hset]
      cases place with
      | topic =>
          by_cases hrefused : Sending.Refused ⟨msg, .topic⟩
          · have hback : sock = s.sock ∧ place' = .returned (-1) ∧ out = [] := by
              rcases hrefused with rfl | rfl <;> cases hnext <;> exact ⟨rfl, rfl, rfl⟩
            obtain ⟨rfl, rfl, rfl⟩ := hback
            rw [List.append_nil]
            exact .refused rfl hrefused hcalls hc
          · obtain ⟨hnone, hempty⟩ := not_or.mp hrefused
            obtain ⟨m, rfl⟩ := Option.ne_none_iff_exists'.mp hnone
            rw [Sending.next_topic d s.sock fun h => hempty (by rw [h])] at hnext
            cases hnext
            rw [List.append_nil]
            exact .topic rfl hrefused hcalls hc
      | payload =>
          cases msg with
          | none => cases hnext
          | some msg =>
              rw [Sending.next_payload] at hnext
              cases hnext
              exact .payload rfl rfl hcalls hc _
      | returned rc => cases hnext

/-! ### While calls stay apart -/

/-- The calls between their two frames. -/
def underway (s : SharedSocket) : List Sending := s.calls.filter fun c => c.place = .payload

/-- At most one call is between its frames, and its topic is all that is pending. -/
structure Clear (d : EDevice) (s : SharedSocket) : Prop where
  pending : s.sock.pending = s.underway.map fun _ => d.sendTopic.bytes
  alone : s.underway.length ≤ 1
  messages : ∀ c ∈ s.calls, ¬c.Refused
  unmixed : Unmixed d s

theorem Clear.start : Clear d start :=
  ⟨rfl, Nat.zero_le _, fun _ hc => absurd hc List.not_mem_nil, .refl _⟩

theorem Clear.step (hclear : Clear d s) (hok : l.Succeeds) (hstep : ApartStep d s l t) :
    Clear d t := by
  obtain ⟨hapart, hstep⟩ := hstep
  obtain ⟨hpending, halone, hmessages, hunmixed⟩ := hclear
  cases hstep.did hok with
  | called msg =>
      refine ⟨?_, ?_, ?_, ?_⟩
      · simpa [underway] using hpending
      · simpa [underway] using halone
      · intro c hc
        rcases List.mem_append.mp hc with hc | hc
        · exact hmessages c hc
        · cases List.mem_singleton.mp hc
          exact not_or.mpr hapart
      · simpa [Unmixed, Sending.hasReturned] using hunmixed
  | @refused k c pre post hplace hrefused hcalls hk =>
      exact absurd hrefused (hmessages c (List.mem_of_getElem? hk))
  | @topic k c pre post hplace hmsg hcalls hk =>
      have hnone := hapart c hk hplace
      simp only [hcalls, List.forall_mem_append, List.forall_mem_cons] at hnone hmessages
      have hpre : pre.filter (fun c => decide (c.place = .payload)) = [] :=
        List.filter_eq_nil_iff.mpr fun c hc => by simpa using hnone.1 c hc
      have hpost : post.filter (fun c => decide (c.place = .payload)) = [] :=
        List.filter_eq_nil_iff.mpr fun c hc => by simpa using hnone.2.2 c hc
      have hidle : s.sock.pending = [] := by
        rw [hpending, underway, hcalls]
        simp [hpre, hpost, hplace]
      refine ⟨?_, ?_, ?_, ?_⟩
      · simp [underway, hpre, hpost, hidle]
      · simp [underway, hpre, hpost]
      · simp only [List.forall_mem_append, List.forall_mem_cons]
        exact ⟨hmessages.1, hmsg, hmessages.2.2⟩
      · rw [Unmixed, hcalls] at hunmixed
        simpa [Unmixed, Sending.hasReturned, hplace] using hunmixed
  | @payload k c msg pre post hplace hmsg hcalls hk rc =>
      have hlone : pre.filter (fun c => decide (c.place = .payload)) = [] ∧
          post.filter (fun c => decide (c.place = .payload)) = [] := by
        rw [underway, hcalls] at halone
        simp only [List.filter_append, List.filter_cons, hplace, decide_true, if_true,
          List.length_append, List.length_cons] at halone
        constructor <;> apply List.eq_nil_of_length_eq_zero <;> omega
      have htopic : s.sock.pending = [d.sendTopic.bytes] := by
        rw [hpending, underway, hcalls]
        simp [hlone, hplace]
      simp only [hcalls, List.forall_mem_append, List.forall_mem_cons] at hmessages
      refine ⟨?_, ?_, ?_, ?_⟩
      · simp [underway, hlone]
      · simp [underway, hlone]
      · simp only [List.forall_mem_append, List.forall_mem_cons]
        exact hmessages
      · rw [Unmixed, hcalls] at hunmixed
        simp only [Unmixed, htopic, List.map_append, List.filter_append, List.filter_cons,
          Sending.hasReturned, hplace, if_true, List.map_cons, List.map_nil, Sending.pair, hmsg,
          Option.map_some] at hunmixed ⊢
        exact (hunmixed.append_right _).trans
          ((List.perm_append_singleton _ _).trans List.perm_middle.symm)

/-! ### Once calls have met -/

/-- Two topic frames are pending for one message, or a message has left that is no pair, or a call
has nothing to contribute. -/
def Spoiled (s : SharedSocket) : Prop :=
  (2 ≤ s.sock.pending.length ∧ ∃ c ∈ s.calls, c.place = .payload) ∨
    (∃ m ∈ s.sent, m.length ≠ 2) ∨ ∃ c ∈ s.calls, c.Refused

theorem Spoiled.step (hspoiled : s.Spoiled) (hok : l.Succeeds) (hstep : Step d s l t) :
    t.Spoiled := by
  -- a message that left stays, and the calls keep what they were given
  have hsent : ∀ m ∈ s.sent, m ∈ t.sent := by
    intro m hm
    cases hstep.did hok with
    | called | refused | topic => exact hm
    | payload => exact List.mem_append_left _ hm
  have hcalls : ∀ c ∈ s.calls, c.Refused → ∃ c ∈ t.calls, c.Refused := by
    intro c hc hrefused
    cases hstep.did hok with
    | called => exact ⟨c, List.mem_append_left _ hc, hrefused⟩
    | @refused k c' pre post _ _ hcalls | @topic k c' pre post _ _ hcalls
    | @payload k c' msg pre post _ _ hcalls =>
        simp only [hcalls, List.mem_append, List.mem_cons] at hc ⊢
        rcases hc with hc | rfl | hc
        · exact ⟨c, Or.inl hc, hrefused⟩
        · exact ⟨_, Or.inr (Or.inl rfl), hrefused⟩
        · exact ⟨c, Or.inr (Or.inr hc), hrefused⟩
  rcases hspoiled with ⟨hpending, c, hc, hplace⟩ | ⟨m, hm, hlength⟩ | ⟨c, hc, hrefused⟩
  · cases hstep.did hok with
    | called msg => exact Or.inl ⟨hpending, c, List.mem_append_left _ hc, hplace⟩
    | @refused k c' pre post hplace' hrefused hcalls' hk =>
        exact Or.inr (Or.inr ⟨_, List.mem_append_right _ List.mem_cons_self, hrefused⟩)
    | topic =>
        refine Or.inl ⟨?_, _, List.mem_append_right _ List.mem_cons_self, rfl⟩
        simp only [List.length_append]
        omega
    | payload =>
        refine Or.inr (Or.inl ⟨_, List.mem_append_right _ (List.mem_singleton.mpr rfl), ?_⟩)
        simp only [List.length_append, List.length_singleton]
        omega
  · exact Or.inr (Or.inl ⟨m, hsent m hm, hlength⟩)
  · exact Or.inr (Or.inr (hcalls c hc hrefused))

/-- A step that brings calls together leaves the socket spoiled. -/
theorem Clear.spoil (hclear : Clear d s) (hok : l.Succeeds) (hstep : Step d s l t)
    (hmet : ¬s.Apart l) : t.Spoiled := by
  cases hstep.did hok with
  | called msg =>
      refine Or.inr (Or.inr ⟨⟨msg, .topic⟩, by simp, ?_⟩)
      exact not_not.mp fun h => hmet (not_or.mp h)
  | @refused k c pre post hplace hrefused hcalls hk =>
      exact absurd hrefused (hclear.messages c (List.mem_of_getElem? hk))
  | @topic k c pre post hplace hmsg hcalls hk =>
      refine Or.inl ⟨?_, _, List.mem_append_right _ List.mem_cons_self, rfl⟩
      have hunder : s.underway ≠ [] := by
        intro hnil
        refine hmet fun _ _ _ c' hc' hplace' => ?_
        exact List.filter_eq_nil_iff.mp hnil c' hc' (by simpa using hplace')
      have hpos := List.length_pos_iff.mpr hunder
      simp only [hclear.pending, List.length_append, List.length_map, List.length_singleton]
      omega
  | @payload k c msg pre post hplace hmsg hcalls hk rc =>
      refine absurd (fun c' hc' htopic => ?_) hmet
      rw [hk, Option.some.injEq] at hc'
      rw [← hc', hplace] at htopic
      cases htopic

/-- A run stays apart and clear, or it is spoiled. -/
theorem Clear.run (hclear : Clear d s) (hok : ∀ l ∈ ls, l.Succeeds) (hrun : Run (Step d) s ls t) :
    (Run (ApartStep d) s ls t ∧ Clear d t) ∨ t.Spoiled := by
  induction hrun with
  | nil s => exact Or.inl ⟨.nil s, hclear⟩
  | @cons s u t l ls hstep hrest ih =>
      rw [List.forall_mem_cons] at hok
      by_cases hapart : s.Apart l
      · have hclear' := hclear.step hok.1 ⟨hapart, hstep⟩
        rcases ih hclear' hok.2 with ⟨hrun', hend⟩ | hspoiled
        · exact Or.inl ⟨.cons ⟨hapart, hstep⟩ hrun', hend⟩
        · exact Or.inr hspoiled
      · refine Or.inr (hrest.invariant_of ?_ hok.2 (hclear.spoil hok.1 hstep hapart))
        intro _ _ _ hok hspoiled hstep
        exact hspoiled.step hok hstep

/-- No empty payload frame goes out. -/
structure Filled (s : SharedSocket) : Prop where
  calls : ∀ c ∈ s.calls, c.place = .payload → ¬c.Refused
  sent : ∀ m ∈ s.sent, m.getLast? ≠ some []

theorem Filled.step (hfilled : s.Filled) (hok : l.Succeeds) (hstep : Step d s l t) : t.Filled := by
  obtain ⟨hcalls, hsent⟩ := hfilled
  cases hstep.did hok with
  | called msg =>
      refine ⟨fun c hc hplace => ?_, hsent⟩
      rcases List.mem_append.mp hc with hc | hc
      · exact hcalls c hc hplace
      · cases List.mem_singleton.mp hc
        cases hplace
  | @refused k c pre post hplace hrefused hsplit hk =>
      simp only [hsplit, List.forall_mem_append, List.forall_mem_cons] at hcalls
      refine ⟨?_, hsent⟩
      simp only [List.forall_mem_append, List.forall_mem_cons]
      exact ⟨hcalls.1, nofun, hcalls.2.2⟩
  | @topic k c pre post hplace hmsg hsplit hk =>
      simp only [hsplit, List.forall_mem_append, List.forall_mem_cons] at hcalls
      refine ⟨?_, hsent⟩
      simp only [List.forall_mem_append, List.forall_mem_cons]
      exact ⟨hcalls.1, fun _ => hmsg, hcalls.2.2⟩
  | @payload k c msg pre post hplace hmsg hsplit hk rc =>
      simp only [hsplit, List.forall_mem_append, List.forall_mem_cons] at hcalls
      refine ⟨?_, ?_⟩
      · simp only [List.forall_mem_append, List.forall_mem_cons]
        exact ⟨hcalls.1, nofun, hcalls.2.2⟩
      · simp only [List.forall_mem_append, List.forall_mem_singleton]
        refine ⟨hsent, fun hlast => hcalls.2.1 hplace (Or.inr ?_)⟩
        rw [List.getLast?_append_cons, List.getLast?_singleton, Option.some.injEq] at hlast
        rw [hmsg, hlast]

theorem Spoiled.mixed (hspoiled : s.Spoiled) (hfilled : s.Filled)
    (hback : ∀ c ∈ s.calls, c.hasReturned = true) : ¬Unmixed d s := by
  intro hunmixed
  have hpairs : ∀ o, o ∈ s.sent.map some ↔ ∃ c ∈ s.calls, c.pair d = o := by
    intro o
    rw [hunmixed.mem_iff, List.filter_eq_self.mpr hback, List.mem_map]
  rcases hspoiled with ⟨-, c, hc, hplace⟩ | ⟨m, hm, hlength⟩ | ⟨c, hc, hrefused⟩
  · have hreturned := hback c hc
    simp [Sending.hasReturned, hplace] at hreturned
  · obtain ⟨c, -, hpair⟩ := (hpairs (some m)).mp (List.mem_map_of_mem hm)
    obtain ⟨msg, -, rfl⟩ := Option.map_eq_some_iff.mp hpair
    exact hlength rfl
  · obtain ⟨m, hm, hpair⟩ := List.mem_map.mp ((hpairs _).mpr ⟨c, hc, rfl⟩)
    rcases hrefused with hnone | hempty
    · rw [Sending.pair, hnone] at hpair
      cases hpair
    · rw [Sending.pair, hempty] at hpair
      cases hpair
      exact hfilled.sent _ hm rfl

/-- **Concurrent sends.** When no send fails, the messages that leave the socket are the pairs of the
calls, one for each, in every run in which calls are made with a message and no call sends its topic
frame while another one is between its frames. No other run that brings all its calls to an end has
this. -/
theorem concurrent_sends_iff (hrun : Run (Step d) start ls t) (hok : ∀ l ∈ ls, l.Succeeds) :
    (Run (ApartStep d) start ls t → Unmixed d t) ∧
      ((∀ c ∈ t.calls, c.hasReturned = true) →
        (Unmixed d t ↔ Run (ApartStep d) start ls t)) := by
  have hsound : Run (ApartStep d) start ls t → Unmixed d t := by
    intro hapart
    have hclear : Clear d t := by
      apply hapart.invariant_of (P := SendLabel.Succeeds) _ hok Clear.start
      intro _ _ _ hok hclear hstep
      exact hclear.step hok hstep
    exact hclear.unmixed
  refine ⟨hsound, fun hback => ⟨fun hunmixed => ?_, hsound⟩⟩
  rcases Clear.start.run hok hrun with ⟨hapart, -⟩ | hspoiled
  · exact hapart
  · have hfilled : t.Filled := by
      apply hrun.invariant_of (P := SendLabel.Succeeds) _ hok ⟨by simp [start], by simp [start]⟩
      intro _ _ _ hok hfilled hstep
      exact hfilled.step hok hstep
    exact absurd hunmixed (hspoiled.mixed hfilled hback)

/-- Two threads whose topic frames come first and whose payloads come after them. -/
def crossedSends : List SendLabel :=
  [.call (some (ascii ['x'])), .call (some (ascii ['y'])), .step 0 true, .step 1 true,
    .step 0 true, .step 1 true]

theorem crossedSends_run (d : EDevice) :
    ∃ t, Run (Step d) start crossedSends t ∧ (∀ c ∈ t.calls, c.hasReturned = true) ∧
      t.sent = [[d.sendTopic.bytes, d.sendTopic.bytes, ascii ['x']], [ascii ['y']]] := by
  have hx : ascii ['x'] ≠ [] := by decide
  have hy : ascii ['y'] ≠ [] := by decide
  refine ⟨_, .cons rfl (.cons rfl
    (.cons ⟨_, _, _, _, rfl, Sending.next_topic d _ hx, rfl⟩
    (.cons ⟨_, _, _, _, rfl, Sending.next_topic d _ hy, rfl⟩
    (.cons ⟨_, _, _, _, rfl, Sending.next_payload d _ _, rfl⟩
    (.cons ⟨_, _, _, _, rfl, Sending.next_payload d _ _, rfl⟩ (.nil _)))))), ?_, rfl⟩
  intro c hc
  rcases List.mem_pair.mp hc with rfl | rfl <;> rfl

theorem concurrent_sends_counterexample :
    ∃ d : EDevice, d.Created ∧ ∃ t, Run (Step d) start crossedSends t ∧
      (∀ l ∈ crossedSends, l.Succeeds) ∧ (∀ c ∈ t.calls, c.hasReturned = true) ∧ ¬Unmixed d t := by
  refine ⟨freshDevice ⟨ascii ['p'], by decide⟩ .monitor none, freshDevice_created _ _ _, ?_⟩
  obtain ⟨t, hrun, hback, hsent⟩ := crossedSends_run
    (freshDevice ⟨ascii ['p'], by decide⟩ .monitor none)
  refine ⟨t, hrun, by simp [crossedSends, SendLabel.Succeeds], hback, fun hunmixed => ?_⟩
  -- a message of one frame is the pair of no call
  have hlone : some [ascii ['y']] ∈ t.sent.map some := by simp [hsent]
  obtain ⟨c, -, hpair⟩ := List.mem_map.mp (hunmixed.mem_iff.mp hlone)
  obtain ⟨msg, -, hpair⟩ := Option.map_eq_some_iff.mp hpair
  simp at hpair

/-- One call after the other. -/
def apartSends : List SendLabel :=
  [.call (some (ascii ['x'])), .call (some (ascii ['y'])), .step 1 true, .step 1 true,
    .step 0 true, .step 0 true]

theorem apartSends_run (d : EDevice) :
    ∃ t, Run (Step d) start apartSends t ∧ t.sent =
      [[d.sendTopic.bytes, ascii ['y']], [d.sendTopic.bytes, ascii ['x']]] := by
  have hx : ascii ['x'] ≠ [] := by decide
  have hy : ascii ['y'] ≠ [] := by decide
  exact ⟨_, .cons rfl (.cons rfl
    (.cons ⟨_, _, _, _, rfl, Sending.next_topic d _ hy, rfl⟩
    (.cons ⟨_, _, _, _, rfl, Sending.next_payload d _ _, rfl⟩
    (.cons ⟨_, _, _, _, rfl, Sending.next_topic d _ hx, rfl⟩
    (.cons ⟨_, _, _, _, rfl, Sending.next_payload d _ _, rfl⟩ (.nil _)))))), rfl⟩

theorem concurrent_sends_apart : ∃ d : EDevice, d.Created ∧ ∃ t, Run (Step d) start apartSends t ∧
    t.sent = [[d.sendTopic.bytes, ascii ['y']], [d.sendTopic.bytes, ascii ['x']]] ∧
      (Run (ApartStep d) start apartSends t → Unmixed d t) ∧
      ((∀ c ∈ t.calls, c.hasReturned = true) →
        (Unmixed d t ↔ Run (ApartStep d) start apartSends t)) := by
  refine ⟨freshDevice ⟨ascii ['p'], by decide⟩ .monitor none, freshDevice_created _ _ _, ?_⟩
  obtain ⟨t, hrun, hsent⟩ := apartSends_run (freshDevice ⟨ascii ['p'], by decide⟩ .monitor none)
  refine ⟨t, hrun, hsent, ?_⟩
  apply concurrent_sends_iff hrun
  simp [apartSends, SendLabel.Succeeds]

end SharedSocket

end LibEzmb

import LibEzmb.BusDevice

/-! Sequences of `e_common_send` calls on one north socket. A call is two sends, and a call whose
first send alone goes through leaves its topic frame behind for the next message. -/

open CBytes Multipart

namespace LibEzmb

/-- One call of `e_common_send`, with whether each of its two sends would succeed. -/
structure SendCall where
  msg : Option Bytes
  okTopic : Bool
  okPayload : Bool
  deriving DecidableEq, Repr

/-- Calls made one after another: the socket they leave, their results and the messages that left
the socket. -/
def eCommonSends (d : EDevice) : List SendCall → OutSocket → OutSocket × List Int × List Msg
  | [], sock => (sock, [], [])
  | c :: calls, sock =>
      let r := eCommonSend (some d) c.msg c.okTopic c.okPayload sock
      let rest := eCommonSends d calls r.1
      (rest.1, r.2.1 :: rest.2.1, r.2.2 ++ rest.2.2)

/-- The pairs of the calls that returned a non-negative value, in call order. -/
def answeredPairs (d : EDevice) : List SendCall → List Int → List Msg
  | c :: calls, rc :: rcs =>
      match c.msg with
      | some msg =>
          if 0 ≤ rc then [d.sendTopic.bytes, msg] :: answeredPairs d calls rcs
          else answeredPairs d calls rcs
      | none => answeredPairs d calls rcs
  | _, _ => []

namespace SendCall

/-- The topic frame goes out and the payload frame does not. -/
def Torn (c : SendCall) : Prop :=
  ∃ msg, c.msg = some msg ∧ msg ≠ [] ∧ c.okTopic = true ∧ c.okPayload = false

/-- Both frames go out. -/
def Whole (c : SendCall) : Prop :=
  ∃ msg, c.msg = some msg ∧ msg ≠ [] ∧ c.okTopic = true ∧ c.okPayload = true

theorem Torn.not_whole {c : SendCall} (htorn : c.Torn) : ¬c.Whole := by
  rintro ⟨_, -, -, -, hpayload⟩
  obtain ⟨_, -, -, -, hpayload'⟩ := htorn
  rw [hpayload] at hpayload'
  cases hpayload'

end SendCall

section Calls

variable (d : EDevice)

/-- A call leaves the socket alone and fails, adds its topic to the pending frames and fails, or
completes a message and succeeds. -/
theorem eCommonSend_cases (c : SendCall) (sock : OutSocket) :
    (¬c.Torn ∧ ¬c.Whole ∧
      eCommonSend (some d) c.msg c.okTopic c.okPayload sock = (sock, (-1 : Int), [])) ∨
    (c.Torn ∧ eCommonSend (some d) c.msg c.okTopic c.okPayload sock =
      (⟨sock.pending ++ [d.sendTopic.bytes]⟩, (-1 : Int), [])) ∨
    ∃ msg, c.Whole ∧ c.msg = some msg ∧
      eCommonSend (some d) c.msg c.okTopic c.okPayload sock =
        (⟨[]⟩, ((min msg.length intMax : Nat) : Int),
          [sock.pending ++ [d.sendTopic.bytes, msg]]) := by
  obtain ⟨msg, okTopic, okPayload⟩ := c
  by_cases hmsg : msg = none ∨ msg = some []
  · refine Or.inl ⟨?_, ?_, eCommonSend_refused d sock hmsg okTopic okPayload⟩
    · rintro ⟨m, hm, hne, -⟩
      rcases hmsg with h | h <;> simp_all
    · rintro ⟨m, hm, hne, -⟩
      rcases hmsg with h | h <;> simp_all
  · obtain ⟨hnone, hempty⟩ := not_or.mp hmsg
    obtain ⟨m, rfl⟩ := Option.ne_none_iff_exists'.mp hnone
    have hne : m ≠ [] := fun h => hempty (by rw [h])
    rw [eCommonSend_some d sock hne]
    cases okTopic with
    | false => exact Or.inl ⟨by simp [SendCall.Torn], by simp [SendCall.Whole], rfl⟩
    | true =>
        cases okPayload with
        | false => exact Or.inr (Or.inl ⟨⟨m, rfl, hne, rfl, rfl⟩, rfl⟩)
        | true => exact Or.inr (Or.inr ⟨m, ⟨m, rfl, hne, rfl, rfl⟩, rfl, rfl⟩)

theorem answeredPairs_failed (c : SendCall) (calls : List SendCall) (rcs : List Int) :
    answeredPairs d (c :: calls) (-1 :: rcs) = answeredPairs d calls rcs := by
  rw [answeredPairs]
  split <;> simp

theorem answeredPairs_answered {c : SendCall} {msg : Bytes} (hmsg : c.msg = some msg) (n : Nat)
    (calls : List SendCall) (rcs : List Int) :
    answeredPairs d (c :: calls) ((n : Int) :: rcs) =
      [d.sendTopic.bytes, msg] :: answeredPairs d calls rcs := by
  simp only [answeredPairs, hmsg, if_pos (Int.natCast_nonneg n)]

/-- With frames already pending, the messages that leave are the answered pairs exactly when no
pending frame and no frame of a torn call meets a whole call. -/
theorem eCommonSends_exact (calls : List SendCall) (sock : OutSocket) :
    (eCommonSends d calls sock).2.2 = answeredPairs d calls (eCommonSends d calls sock).2.1 ↔
      (sock.pending = [] ∨ ∀ c ∈ calls, ¬c.Whole) ∧
        calls.Pairwise fun c c' => ¬(c.Torn ∧ c'.Whole) := by
  induction calls generalizing sock with
  | nil => simp [eCommonSends, answeredPairs]
  | cons c calls ih =>
      rcases eCommonSend_cases d c sock with ⟨htorn, hwhole, hsend⟩ | ⟨htorn, hsend⟩ |
        ⟨msg, hwhole, hmsg, hsend⟩
      · simp only [eCommonSends, hsend, List.nil_append, answeredPairs_failed, ih sock,
          List.forall_mem_cons, hwhole, not_false_eq_true, true_and, List.pairwise_cons, htorn,
          false_and, implies_true]
      · have hpending : sock.pending ++ [d.sendTopic.bytes] ≠ [] := by simp
        simp only [eCommonSends, hsend, List.nil_append, answeredPairs_failed,
          ih ⟨sock.pending ++ [d.sendTopic.bytes]⟩, hpending, false_or, List.forall_mem_cons,
          htorn.not_whole, not_false_eq_true, true_and, List.pairwise_cons, htorn]
        constructor
        · rintro ⟨hnone, hpair⟩
          exact ⟨Or.inr hnone, hnone, hpair⟩
        · rintro ⟨-, hnone, hpair⟩
          exact ⟨hnone, hpair⟩
      · have htorn : ¬c.Torn := fun htorn => htorn.not_whole hwhole
        have hhead : sock.pending ++ [d.sendTopic.bytes, msg] = [d.sendTopic.bytes, msg] ↔
            sock.pending = [] := by
          exact List.append_left_eq_self
        simp only [eCommonSends, hsend, List.singleton_append, answeredPairs_answered d hmsg,
          List.cons.injEq, hhead, ih ⟨[]⟩, true_or, true_and, List.forall_mem_cons, hwhole,
          not_true_eq_false, false_and, or_false, List.pairwise_cons, htorn, not_false_eq_true,
          implies_true]

/-- **All or nothing.** The messages that leave a fresh north socket are the pairs of the calls that
returned a non-negative value exactly when no call whose topic frame alone went out comes before a
call that succeeds. -/
theorem sends_all_or_nothing_iff (calls : List SendCall) :
    (eCommonSends d calls ⟨[]⟩).2.2 = answeredPairs d calls (eCommonSends d calls ⟨[]⟩).2.1 ↔
      calls.Pairwise fun c c' => ¬(c.Torn ∧ c'.Whole) := by
  rw [eCommonSends_exact]
  simp

/-- Every message of a device begins with its topic, also behind frames of torn calls. -/
theorem eCommonSends_head (calls : List SendCall) (sock : OutSocket)
    (hpending : ∀ f ∈ sock.pending, f = d.sendTopic.bytes) :
    ∀ m ∈ (eCommonSends d calls sock).2.2, m.head? = some d.sendTopic.bytes := by
  induction calls generalizing sock with
  | nil => simp [eCommonSends]
  | cons c calls ih =>
      rcases eCommonSend_cases d c sock with ⟨-, -, hsend⟩ | ⟨-, hsend⟩ | ⟨msg, -, -, hsend⟩
      · simpa only [eCommonSends, hsend, List.nil_append] using ih sock hpending
      · simp only [eCommonSends, hsend, List.nil_append]
        apply ih
        intro f hf
        rcases List.mem_append.mp hf with hf | hf
        · exact hpending f hf
        · exact List.mem_singleton.mp hf
      · simp only [eCommonSends, hsend, List.singleton_append, List.forall_mem_cons]
        refine ⟨?_, ih ⟨[]⟩ (fun f hf => by cases hf)⟩
        cases hpend : sock.pending with
        | nil => rfl
        | cons f fs =>
            have hf := hpending f (by rw [hpend]; exact List.mem_cons_self)
            simp [hf]

end Calls

/-- A collector whose second send of the first call fails: the topic frame it left is joined to the
message of the second call. -/
def tornCalls : List SendCall :=
  [⟨some (ascii ['x']), true, false⟩, ⟨some (ascii ['y']), true, true⟩]

theorem sends_torn_counterexample :
    ∃ d : EDevice, d.Created ∧
      (eCommonSends d tornCalls ⟨[]⟩).2.2 ≠
        answeredPairs d tornCalls (eCommonSends d tornCalls ⟨[]⟩).2.1 :=
  ⟨freshDevice ⟨ascii ['p'], by decide⟩ .collector none, freshDevice_created _ _ _, by decide⟩

end LibEzmb

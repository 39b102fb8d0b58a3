import LibEzmb.CollectorDownstream
import LibEzmb.GatewayModel

/-! Runs of the gateway. Seen from one of its parts, a run is a run of this part alone. -/

open CHeap CBytes Multipart Runs

namespace LibEzmb

variable {α π : Type} [DecidableEq α]

theorem Refusal.expect_ok {β : Type} {x : Option β} {b : β} (hexpect : Refusal.expect x = .ok b) :
    x = some b := by
  cases x with
  | none => cases hexpect
  | some c =>
      cases hexpect
      rfl

namespace Gateway

variable {site : Site α π} {s t : Gateway site}

/-! ### One step -/

/-- The chunks of a section are sent by the devices they came for. -/
theorem sendChunks_moves {rs : List Received} {bus bus' : BusState site.Place}
    (hsend : rs.foldlM site.sendChunk bus = some bus') :
    BusState.Moves site.bus bus bus' (GatewayOut.received rs : GatewayOut site).sends
      (GatewayOut.received rs : GatewayOut site).hears := by
  induction rs generalizing bus with
  | nil =>
      cases hsend
      convert BusState.Moves.refl site.bus _ using 1 <;> funext x <;> cases x <;> rfl
  | cons r rs ih =>
      rw [List.foldlM_cons] at hsend
      obtain ⟨mid, hfst, hrest⟩ := Option.bind_eq_some_iff.mp hsend
      obtain ⟨i, hi, hstep⟩ := Option.bind_eq_some_iff.mp hfst
      have hmoves := (BusState.Moves.send hstep).trans (ih hrest)
      convert hmoves using 1
      · funext x
        cases x with
        | inr a => simp [GatewayOut.sends]
        | inl j =>
            by_cases hj : j = i
            · subst hj
              by_cases hchunk : r.chunk = [] <;> simp [GatewayOut.sends, hi, hchunk]
            · have hne : ¬i = j := fun h => hj h.symm
              simp [GatewayOut.sends, hi, hj, hne]
      · funext x
        cases x <;> rfl

theorem hear_moves {x : site.Place} {poll : Option Bool} {bus : BusState site.Place}
    {heard : Option Heard} (hhear : s.hear x poll = some (bus, heard)) :
    BusState.Moves site.bus s.bus bus (fun _ => [])
      fun y => if y = x then heard.toList.map Heard.payload else [] := by
  obtain ⟨⟨heard', fs⟩, hiter, hrest⟩ := Option.bind_eq_some_iff.mp hhear
  obtain ⟨bus', hstep, heq⟩ := Option.bind_eq_some_iff.mp hrest
  cases heq
  exact BusState.Moves.listen hiter hstep

/-- A step of an actuator moves this actuator alone, and sends what it passes on to the monitor. -/
theorem act_spec {a : α} {l : BridgeLabel} {what : Option Forward}
    (hact : s.act a l = .ok (t, what)) :
    t.collector = s.collector ∧
      BusState.Moves site.bus s.bus t.bus (GatewayOut.ofForward a what : GatewayOut site).sends
        (fun _ => []) ∧
      ∃ bridge out, (s.actuator a).step site.nodes site.messages (site.code a) l = .ok (bridge, out) ∧
        t.actuator = Function.update s.actuator a bridge ∧ out.forward? = what := by
  obtain ⟨⟨bridge, out⟩, hlift, hrest⟩ := bind_eq_ok hact
  have hstep := Refusal.lift_ok hlift
  simp only at hrest
  have hquiet : BusState.Moves site.bus s.bus s.bus (fun _ => []) (fun _ => []) := .refl _ _
  split at hrest
  · next bytes hforward =>
      obtain ⟨bus, hexpect, hok⟩ := bind_eq_ok hrest
      cases hok
      refine ⟨rfl, ?_, bridge, out, hstep, rfl, hforward⟩
      convert BusState.Moves.send (Refusal.expect_ok hexpect) using 1
      funext x
      cases x with
      | inl i => simp [GatewayOut.ofForward, GatewayOut.sends]
      | inr b => simp [GatewayOut.ofForward, GatewayOut.sends]
  · next hforward =>
      cases hrest
      refine ⟨rfl, ?_, bridge, out, hstep, rfl, rfl⟩
      convert hquiet using 1
      funext x
      match hwhat : out.forward? with
      | none => cases x <;> rfl
      | some (.broadcast bytes) => cases x <;> rfl
      | some (.monitorSend bytes) => exact absurd hwhat (hforward bytes)

/-- A callback of an actuator queues its message and passes nothing on. -/
theorem act_arrive {a : α} {okMsg okPayload : Bool} {what : Arrival} {fwd : Option Forward}
    (hact : s.act a (.arrive okMsg okPayload what) = .ok (t, fwd)) : fwd = none := by
  obtain ⟨-, -, bridge, out, hstep, -, rfl⟩ := act_spec hact
  cases what <;>
    · obtain ⟨u, -, hout⟩ := bind_eq_ok hstep
      cases hout
      rfl

/-- Only a section of the read thread calls `recv_callback`. -/
theorem receives_of_step {c c' : Collector} {l : CollectorLabel} {o : CollectorOut}
    (hstep : c.step l = .ok (c', o)) (hreader : ∀ env ok, l ≠ .reader env ok) : o.receives = [] := by
  cases l with
  | reader env ok => exact absurd rfl (hreader env ok)
  | monitor env =>
      obtain ⟨⟨system, out⟩, -, hok⟩ := bind_eq_ok hstep
      cases hok
      rfl
  | arrive device m =>
      cases hstep
      rfl
  | begin i =>
      rw [Collector.step] at hstep
      split at hstep
      · cases hstep
      · obtain ⟨d, -, hrest⟩ := bind_eq_ok hstep
        split at hrest
        · cases hrest
          rfl
        · obtain ⟨devices, -, hok⟩ := bind_eq_ok hrest
          cases hok
          rfl
  | listen i env ret =>
      rw [Collector.step] at hstep
      split at hstep
      · cases hstep
      · cases hstep
      · obtain ⟨d, -, hrest⟩ := bind_eq_ok hstep
        split at hrest
        · cases hrest
        · split at hrest
          · cases hrest
            rfl
          · split at hrest
            · obtain ⟨⟨written, r⟩, -, hok⟩ := bind_eq_ok hrest
              cases hok
              rfl
            · cases hrest
              rfl

theorem received_singleton (l : CollectorLabel) (o : CollectorOut) : received [(l, o)] = o.receives :=
  List.append_nil _

theorem ofForward_hears (a : α) (what : Option Forward) :
    (GatewayOut.ofForward a what : GatewayOut site).hears = fun _ => [] := by
  funext x
  cases what <;> cases x <;> rfl

/-- **The bus in a step.** -/
theorem step_bus {lo : GatewayLabel site × GatewayOut site} (hstep : Fires step s lo t) :
    BusState.Moves site.bus s.bus t.bus lo.2.sends lo.2.hears := by
  obtain ⟨l, o⟩ := lo
  have hquiet : BusState.Moves site.bus s.bus s.bus (GatewayOut.quiet : GatewayOut site).sends
      (GatewayOut.quiet : GatewayOut site).hears := by
    convert BusState.Moves.refl site.bus s.bus using 1 <;> funext x <;> cases x <;> rfl
  have hnone : ∀ {bus : BusState site.Place}, (∃ x poll, s.hear x poll = some (bus, none)) →
      BusState.Moves site.bus s.bus bus (GatewayOut.quiet : GatewayOut site).sends
        (GatewayOut.quiet : GatewayOut site).hears := by
    rintro bus ⟨x, poll, hhear⟩
    convert hear_moves hhear using 1 <;> funext y <;> cases y <;> simp [GatewayOut.sends,
      GatewayOut.hears]
  cases l with
  | reader env =>
      obtain ⟨⟨c, out⟩, -, hrest⟩ := bind_eq_ok hstep
      obtain ⟨bus, hexpect, hok⟩ := bind_eq_ok hrest
      cases hok
      exact sendChunks_moves (Refusal.expect_ok hexpect)
  | monitor env =>
      obtain ⟨⟨c, out⟩, -, hok⟩ := bind_eq_ok hstep
      cases hok
      exact hquiet
  | begin i =>
      obtain ⟨⟨c, out⟩, -, hok⟩ := bind_eq_ok hstep
      cases hok
      exact hquiet
  | forward pick poll =>
      obtain ⟨bus, hexpect, hok⟩ := bind_eq_ok hstep
      cases hok
      convert BusState.Moves.forward (Refusal.expect_ok hexpect) using 1 <;> funext x <;> cases x <;>
        rfl
  | hearPort i poll ret =>
      obtain ⟨⟨bus, heard⟩, hexpect, hrest⟩ := bind_eq_ok hstep
      have hhear := Refusal.expect_ok hexpect
      cases heard with
      | none =>
          cases hrest
          exact hnone ⟨_, _, hhear⟩
      | some h =>
          obtain ⟨⟨c, out₁⟩, harrive, hrest⟩ := bind_eq_ok hrest
          obtain ⟨⟨c', out⟩, hlisten, hok⟩ := bind_eq_ok hrest
          cases hok
          convert hear_moves hhear using 1 <;> funext y <;> cases y <;>
            simp [GatewayOut.sends, GatewayOut.hears]
  | hearMonitor a poll okMsg okPayload =>
      obtain ⟨⟨bus, heard⟩, hexpect, hrest⟩ := bind_eq_ok hstep
      have hhear := Refusal.expect_ok hexpect
      cases heard with
      | none =>
          cases hrest
          exact hnone ⟨_, _, hhear⟩
      | some h =>
          obtain ⟨⟨u, fwd⟩, hact, hok⟩ := bind_eq_ok hrest
          cases hok
          obtain rfl := act_arrive hact
          obtain ⟨-, hmoves, -⟩ := act_spec hact
          convert (hear_moves hhear).trans hmoves using 1 <;> funext y <;> cases y <;>
            simp [GatewayOut.sends, GatewayOut.hears, GatewayOut.ofForward]
  | client a okMsg okPayload chunk =>
      obtain ⟨⟨u, fwd⟩, hact, hok⟩ := bind_eq_ok hstep
      cases hok
      obtain rfl := act_arrive hact
      obtain ⟨-, hmoves, -⟩ := act_spec hact
      convert hmoves using 1 <;> funext y <;> cases y <;> rfl
  | app a =>
      obtain ⟨⟨u, what⟩, hact, hok⟩ := bind_eq_ok hstep
      cases hok
      obtain ⟨-, hmoves, -⟩ := act_spec hact
      rw [← ofForward_hears a what] at hmoves
      exact hmoves

/-- **The collector in a step.** -/
theorem step_collector {lo : GatewayLabel site × GatewayOut site} (hstep : Fires step s lo t) :
    ∃ clos, Run (Fires Collector.step) s.collector clos t.collector ∧ received clos = lo.2.receives := by
  obtain ⟨l, o⟩ := lo
  cases l with
  | reader env =>
      obtain ⟨⟨c, out⟩, hcollector, hrest⟩ := bind_eq_ok hstep
      obtain ⟨bus, -, hok⟩ := bind_eq_ok hrest
      cases hok
      exact ⟨[(_, out)], .cons hcollector (.nil c), received_singleton _ out⟩
  | monitor env =>
      obtain ⟨⟨c, out⟩, hcollector, hok⟩ := bind_eq_ok hstep
      cases hok
      refine ⟨[(_, out)], .cons hcollector (.nil _), ?_⟩
      rw [received_singleton, receives_of_step hcollector (by simp)]
      rfl
  | begin i =>
      obtain ⟨⟨c, out⟩, hcollector, hok⟩ := bind_eq_ok hstep
      cases hok
      refine ⟨[(_, out)], .cons hcollector (.nil _), ?_⟩
      rw [received_singleton, receives_of_step hcollector (by simp)]
      rfl
  | forward pick poll =>
      obtain ⟨bus, -, hok⟩ := bind_eq_ok hstep
      cases hok
      exact ⟨[], .nil _, rfl⟩
  | hearPort i poll ret =>
      obtain ⟨⟨bus, heard⟩, -, hrest⟩ := bind_eq_ok hstep
      cases heard with
      | none =>
          cases hrest
          exact ⟨[], .nil _, rfl⟩
      | some h =>
          obtain ⟨⟨c, out₁⟩, harrive, hrest⟩ := bind_eq_ok hrest
          obtain ⟨⟨c', out⟩, hlisten, hok⟩ := bind_eq_ok hrest
          cases hok
          refine ⟨[(_, out₁), (_, out)], .cons harrive (.cons hlisten (.nil _)), ?_⟩
          rw [received, List.flatMap_cons, receives_of_step harrive (by simp), List.nil_append]
          exact (received_singleton _ out).trans (receives_of_step hlisten (by simp))
  | hearMonitor a poll okMsg okPayload =>
      obtain ⟨⟨bus, heard⟩, -, hrest⟩ := bind_eq_ok hstep
      cases heard with
      | none =>
          cases hrest
          exact ⟨[], .nil _, rfl⟩
      | some h =>
          obtain ⟨⟨u, fwd⟩, hact, hok⟩ := bind_eq_ok hrest
          cases hok
          obtain ⟨hsame, -⟩ := act_spec hact
          rw [hsame]
          exact ⟨[], .nil _, rfl⟩
  | client a okMsg okPayload chunk =>
      obtain ⟨⟨u, fwd⟩, hact, hok⟩ := bind_eq_ok hstep
      cases hok
      obtain ⟨hsame, -⟩ := act_spec hact
      rw [hsame]
      exact ⟨[], .nil _, rfl⟩
  | app a =>
      obtain ⟨⟨u, what⟩, hact, hok⟩ := bind_eq_ok hstep
      cases hok
      obtain ⟨hsame, -⟩ := act_spec hact
      rw [hsame]
      refine ⟨[], .nil _, ?_⟩
      cases what <;> rfl

/-- **An actuator in a step.** -/
theorem step_actuator (a : α) {lo : GatewayLabel site × GatewayOut site} (hstep : Fires step s lo t) :
    ∃ als aos, exec (Bridge.step site.nodes site.messages (site.code a)) (s.actuator a) als =
        .ok (t.actuator a, aos) ∧
      LibEzmb.arrivals als = lo.2.arrivals a ∧ LibEzmb.forwards aos = lo.2.forwards a := by
  obtain ⟨l, o⟩ := lo
  have hact : ∀ {u v : Gateway site} {b : α} {bl : BridgeLabel} {what : Option Forward},
      u.act b bl = .ok (v, what) → u.actuator = s.actuator →
      ∃ als aos, exec (Bridge.step site.nodes site.messages (site.code a)) (s.actuator a) als =
          .ok (v.actuator a, aos) ∧
        LibEzmb.arrivals als = (if a = b then LibEzmb.arrivals [bl] else []) ∧
        LibEzmb.forwards aos = if a = b then what.toList else [] := by
    intro u v b bl what hact hsame
    obtain ⟨-, -, bridge, out, hbridge, hactuator, rfl⟩ := act_spec hact
    rw [hactuator, hsame]
    rw [hsame] at hbridge
    by_cases hab : a = b
    · subst hab
      rw [Function.update_self, if_pos rfl, if_pos rfl]
      refine ⟨[bl], [out], exec_cons_ok.mpr ⟨bridge, out, [], hbridge, rfl, rfl⟩, rfl, ?_⟩
      cases out <;> rfl
    · rw [Function.update_of_ne hab, if_neg hab, if_neg hab]
      exact ⟨[], [], rfl, rfl, rfl⟩
  have hstays : ∀ {o : GatewayOut site}, t.actuator = s.actuator → o.arrivals a = [] →
      o.forwards a = [] → ∃ als aos, exec (Bridge.step site.nodes site.messages (site.code a))
          (s.actuator a) als = .ok (t.actuator a, aos) ∧
        LibEzmb.arrivals als = o.arrivals a ∧ LibEzmb.forwards aos = o.forwards a := by
    intro o hsame harrivals hforwards
    rw [hsame, harrivals, hforwards]
    exact ⟨[], [], rfl, rfl, rfl⟩
  cases l with
  | reader env =>
      obtain ⟨⟨c, out⟩, -, hrest⟩ := bind_eq_ok hstep
      obtain ⟨bus, -, hok⟩ := bind_eq_ok hrest
      cases hok
      exact hstays rfl rfl rfl
  | monitor env | begin i =>
      obtain ⟨⟨c, out⟩, -, hok⟩ := bind_eq_ok hstep
      cases hok
      exact hstays rfl rfl rfl
  | forward pick poll =>
      obtain ⟨bus, -, hok⟩ := bind_eq_ok hstep
      cases hok
      exact hstays rfl rfl rfl
  | hearPort i poll ret =>
      obtain ⟨⟨bus, heard⟩, -, hrest⟩ := bind_eq_ok hstep
      cases heard with
      | none =>
          cases hrest
          exact hstays rfl rfl rfl
      | some h =>
          obtain ⟨⟨c, out₁⟩, harrive, hrest⟩ := bind_eq_ok hrest
          obtain ⟨⟨c', out⟩, hlisten, hok⟩ := bind_eq_ok hrest
          cases hok
          exact hstays rfl rfl rfl
  | hearMonitor b poll okMsg okPayload =>
      obtain ⟨⟨bus, heard⟩, -, hrest⟩ := bind_eq_ok hstep
      cases heard with
      | none =>
          cases hrest
          exact hstays rfl rfl rfl
      | some h =>
          obtain ⟨⟨u, fwd⟩, hfires, hok⟩ := bind_eq_ok hrest
          cases hok
          obtain rfl := act_arrive hfires
          obtain ⟨als, aos, hexec, harrivals, hforwards⟩ := hact hfires rfl
          exact ⟨als, aos, hexec, harrivals, hforwards.trans (ite_self _)⟩
  | client b okMsg okPayload chunk =>
      obtain ⟨⟨u, fwd⟩, hfires, hok⟩ := bind_eq_ok hstep
      cases hok
      obtain rfl := act_arrive hfires
      obtain ⟨als, aos, hexec, harrivals, hforwards⟩ := hact hfires rfl
      exact ⟨als, aos, hexec, harrivals, hforwards.trans (ite_self _)⟩
  | app b =>
      obtain ⟨⟨u, what⟩, hfires, hok⟩ := bind_eq_ok hstep
      cases hok
      obtain ⟨als, aos, hexec, harrivals, hforwards⟩ := hact hfires rfl
      refine ⟨als, aos, hexec, ?_, ?_⟩
      · rw [harrivals]
        cases what <;> exact ite_self _
      · rw [hforwards]
        cases what with
        | none => exact ite_self _
        | some fwd => rfl

end Gateway

/-! ### Runs -/

section Log

variable {site : Site α π}

/-- What a run shows of one kind. -/
def shown {β : Type} (show₁ : GatewayOut site → List β)
    (los : List (GatewayLabel site × GatewayOut site)) : List β := los.flatMap fun lo => show₁ lo.2

omit [DecidableEq α] in
theorem shown_append {β : Type} (show₁ : GatewayOut site → List β)
    (los los' : List (GatewayLabel site × GatewayOut site)) :
    shown show₁ (los ++ los') = shown show₁ los ++ shown show₁ los' := List.flatMap_append

end Log

namespace Gateway

variable {site : Site α π} {s t : Gateway site} {los : List (GatewayLabel site × GatewayOut site)}

theorem run_bus (hrun : Run (Fires step) s los t) :
    BusState.Moves site.bus s.bus t.bus (fun x => shown (fun o => o.sends x) los)
      fun x => shown (fun o => o.hears x) los := by
  induction hrun with
  | nil s => exact .refl site.bus s.bus
  | cons hstep _ ih => exact (step_bus hstep).trans ih

theorem run_collector (hrun : Run (Fires step) s los t) :
    ∃ clos, Run (Fires Collector.step) s.collector clos t.collector ∧
      received clos = shown GatewayOut.receives los := by
  induction hrun with
  | nil s => exact ⟨[], .nil _, rfl⟩
  | cons hstep _ ih =>
      obtain ⟨clos, hrun, hreceived⟩ := step_collector hstep
      obtain ⟨clos', hrun', hreceived'⟩ := ih
      refine ⟨clos ++ clos', hrun.append hrun', ?_⟩
      rw [received, List.flatMap_append]
      exact congrArg₂ _ hreceived hreceived'

theorem run_actuator (a : α) (hrun : Run (Fires step) s los t) :
    ∃ als aos, exec (Bridge.step site.nodes site.messages (site.code a)) (s.actuator a) als =
        .ok (t.actuator a, aos) ∧
      LibEzmb.arrivals als = shown (fun o => o.arrivals a) los ∧
      LibEzmb.forwards aos = shown (fun o => o.forwards a) los := by
  induction hrun with
  | nil s => exact ⟨[], [], rfl, rfl, rfl⟩
  | cons hstep _ ih =>
      obtain ⟨als, aos, hexec, harrivals, hforwards⟩ := step_actuator a hstep
      obtain ⟨als', aos', hexec', harrivals', hforwards'⟩ := ih
      refine ⟨als ++ als', aos ++ aos', exec_append hexec hexec', ?_, ?_⟩
      · rw [LibEzmb.arrivals, List.filterMap_append]
        exact congrArg₂ _ harrivals harrivals'
      · rw [LibEzmb.forwards, List.filterMap_append]
        exact congrArg₂ _ hforwards hforwards'

end Gateway

end LibEzmb

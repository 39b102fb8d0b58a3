import LibEzmb.BaseWorkers
import LibEzmb.BusDevice

/-! The listener threads of e_device.c, e_proxy.c and e_device_lua.c step by step, against `listen`,
`stop` and `destroy`: what one boolean can and cannot do for the threads that share it. -/

open Runs Workers Workers.Pool

namespace LibEzmb

/-- What the call of a step gives: whether it succeeds, and for `zmq_poll` the sockets with input. -/
structure ListenAnswer where
  ok : Bool
  front : Bool
  back : Bool
  deriving DecidableEq, Repr

/-! ### The threads -/

/-- Where `e_device_listen_thread` is: before the check of the callback, the store to `running`, the
set-up of the poll items, the loop test, the poll, each receive, the callback. -/
inductive DevicePlace where
  | entry
  | store
  | items
  | test
  | poll
  | recvTopic
  | recvData
  | call
  | done
  deriving DecidableEq, Repr

def deviceNext (device : EDevice) (running _handle : Bool) (answer : ListenAnswer) :
    DevicePlace → Option DevicePlace
  | .entry => some (if device.cb.isNone then .done else .store)
  | .store => some .items
  | .items => some .test
  | .test => some (if running then .poll else .done)
  | .poll => some (if answer.ok && answer.front then .recvTopic else .test)
  | .recvTopic => some (if answer.ok then .recvData else .test)
  | .recvData => some (if answer.ok then .call else .test)
  | .call => some .test
  | .done => some .done

/-- `e_device_listen_thread`. -/
def eDeviceListenThread (device : EDevice) : Program DevicePlace ListenAnswer where
  entry := .entry
  next := deviceNext device
  touches
    | .done => false
    | _ => true
  raises
    | .store => true
    | _ => false
  takes
    | answer, .recvTopic => answer.ok
    | _, _ => false
  done := .done
  done_next _ _ _ := rfl
  done_touches := rfl

/-- Where `e_proxy_listen_thread` is. From the poll on it remembers whether the backend had input. -/
inductive ProxyPlace where
  | entry
  | store
  | items
  | test
  | poll
  | recvTopic (back : Bool)
  | recvData (back : Bool)
  | call (back : Bool)
  | sendTopic (back : Bool)
  | sendData (back : Bool)
  | recvSub
  | sendSub
  | done
  deriving DecidableEq, Repr

def proxyNext (running _handle : Bool) (answer : ListenAnswer) : ProxyPlace → Option ProxyPlace
  | .entry => some .store
  | .store => some .items
  | .items => some .test
  | .test => some (if running then .poll else .done)
  | .poll =>
      some (if !answer.ok then .test
        else if answer.front then .recvTopic answer.back
        else if answer.back then .recvSub
        else .test)
  | .recvTopic back => some (if answer.ok then .recvData back else .test)
  | .recvData back => some (if answer.ok then .call back else .test)
  | .call back => some (.sendTopic back)
  | .sendTopic back => some (.sendData back)
  | .sendData back => some (if back then .recvSub else .test)
  | .recvSub => some (if answer.ok then .sendSub else .test)
  | .sendSub => some .test
  | .done => some .done

/-- `e_proxy_listen_thread`. Its check of the argument does not look into the proxy. -/
def eProxyListenThread : Program ProxyPlace ListenAnswer where
  entry := .entry
  next := proxyNext
  touches
    | .entry | .done => false
    | _ => true
  raises
    | .store => true
    | _ => false
  takes
    | answer, .recvTopic _ => answer.ok
    | answer, .recvSub => answer.ok
    | _, _ => false
  done := .done
  done_next _ _ _ := rfl
  done_touches := rfl

/-- Where `lua_listen_thread` is. It gets the device from the userdata, where `l_device_destroy` puts
the null pointer, and stores nothing. -/
inductive LuaPlace where
  | entry
  | items (device : Bool)
  | test
  | poll
  | recvTopic
  | recvData
  | call
  | done
  deriving DecidableEq, Repr

def luaNext (running handle : Bool) (answer : ListenAnswer) : LuaPlace → Option LuaPlace
  | .entry => some (.items handle)
  | .items device => if device then some .test else none
  | .test => some (if running then .poll else .done)
  | .poll => some (if answer.ok && answer.front then .recvTopic else .test)
  | .recvTopic => some (if answer.ok then .recvData else .test)
  | .recvData => some (if answer.ok then .call else .test)
  | .call => some .test
  | .done => some .done

/-- `lua_listen_thread`. The callback is in the userdata, not in the device. -/
def luaListenThread : Program LuaPlace ListenAnswer where
  entry := .entry
  next := luaNext
  touches
    | .items device => device
    | .test | .poll | .recvTopic | .recvData => true
    | .entry | .call | .done => false
  raises _ := false
  takes
    | answer, .recvTopic => answer.ok
    | _, _ => false
  done := .done
  done_next _ _ _ := rfl
  done_touches := rfl

/-! ### Stop -/

/-- The thread has still to store to `running`, or to find out that it has no callback. -/
def DevicePlace.BeforeStore (device : EDevice) : DevicePlace → Prop
  | .entry => device.cb.isSome
  | .store => True
  | _ => False

/-- The messages the round a thread is in may still take. -/
def DevicePlace.left : DevicePlace → Nat
  | .poll | .recvTopic => 1
  | _ => 0

def ProxyPlace.BeforeStore : ProxyPlace → Prop
  | .entry | .store => True
  | _ => False

/-- The messages the round may still take, from the frontend and from the backend. -/
def ProxyPlace.left : ProxyPlace → Nat
  | .poll => 2
  | .recvTopic back => 1 + back.toNat
  | .recvData back | .call back | .sendTopic back | .sendData back => back.toNat
  | .recvSub => 1
  | _ => 0

theorem deviceNext_down {device : EDevice} (handle : Bool) {answer : ListenAnswer}
    {place place' : DevicePlace} (hpast : ¬place.BeforeStore device)
    (hnext : deviceNext device false handle answer place = some place') :
    ¬place'.BeforeStore device ∧
      ((eDeviceListenThread device).takes answer place).toNat + place'.left ≤ place.left := by
  simp only [eDeviceListenThread]
  cases place <;> simp only [deviceNext, Option.some.injEq] at hnext <;> subst hnext
  case entry =>
    simp only [DevicePlace.BeforeStore, Option.isSome_iff_ne_none, ne_eq, not_not] at hpast
    simp [hpast, DevicePlace.BeforeStore, DevicePlace.left]
  case store => exact absurd trivial hpast
  case recvTopic => cases hok : answer.ok <;> simp [hok, DevicePlace.BeforeStore, DevicePlace.left]
  case poll | recvData => split <;> simp [DevicePlace.BeforeStore, DevicePlace.left]
  all_goals simp [DevicePlace.BeforeStore, DevicePlace.left]

theorem proxyNext_down (handle : Bool) {answer : ListenAnswer} {place place' : ProxyPlace}
    (hpast : ¬place.BeforeStore) (hnext : proxyNext false handle answer place = some place') :
    ¬place'.BeforeStore ∧
      (eProxyListenThread.takes answer place).toNat + place'.left ≤ place.left := by
  simp only [eProxyListenThread]
  cases place <;> simp only [proxyNext, Option.some.injEq] at hnext <;> subst hnext
  case entry | store => exact absurd trivial hpast
  case poll =>
    split_ifs <;> simp [ProxyPlace.BeforeStore, ProxyPlace.left]
    cases answer.back <;> simp
  case recvTopic back =>
    cases hok : answer.ok <;> simp [hok, ProxyPlace.BeforeStore, ProxyPlace.left]
  case recvSub => cases hok : answer.ok <;> simp [hok, ProxyPlace.BeforeStore, ProxyPlace.left]
  case recvData | sendData => split_ifs <;> simp_all [ProxyPlace.BeforeStore, ProxyPlace.left]
  all_goals simp [ProxyPlace.BeforeStore, ProxyPlace.left]

theorem device_settled (device : EDevice) :
    Settled (eDeviceListenThread device) (fun place => ¬place.BeforeStore device)
      DevicePlace.left where
  keeps handle _ _ _ hpast hnext := (deviceNext_down handle hpast hnext).1
  quiet place hpast := by cases place <;> first | rfl | exact absurd trivial hpast
  pays handle _ _ _ hpast hnext := (deviceNext_down handle hpast hnext).2

theorem proxy_settled :
    Settled eProxyListenThread (fun place => ¬place.BeforeStore) ProxyPlace.left where
  keeps handle _ _ _ hpast hnext := (proxyNext_down handle hpast hnext).1
  quiet place hpast := by cases place <;> first | rfl | exact absurd trivial hpast
  pays handle _ _ _ hpast hnext := (proxyNext_down handle hpast hnext).2

/-- A system call that succeeds without input. -/
def ListenAnswer.quiet : ListenAnswer := ⟨true, false, false⟩

theorem device_rises (device : EDevice) :
    Rises (eDeviceListenThread device) (fun place => ¬place.BeforeStore device) where
  near place hbefore := by
    rw [not_not] at hbefore
    cases place with
    | entry =>
        obtain ⟨cb, hcb⟩ := Option.isSome_iff_exists.mp hbefore
        refine Or.inr ⟨.quiet, .store, fun flag handle => ?_, rfl⟩
        simp [eDeviceListenThread, deviceNext, hcb]
    | store => exact Or.inl rfl
    | _ => exact absurd hbefore id
  goes place hraises := by
    cases place with
    | store => exact ⟨.quiet, .items, fun _ _ => rfl⟩
    | _ => cases hraises

theorem proxy_rises : Rises eProxyListenThread (fun place => ¬place.BeforeStore) where
  near place hbefore := by
    rw [not_not] at hbefore
    cases place with
    | entry => exact Or.inr ⟨.quiet, .store, fun _ _ => rfl, rfl⟩
    | store => exact Or.inl rfl
    | _ => exact absurd hbefore id
  goes place hraises := by
    cases place with
    | store => exact ⟨.quiet, .items, fun _ _ => rfl⟩
    | _ => cases hraises

/-- **Stop.** Stopping a device or a proxy that is not being freed is effective exactly when none of
its threads has still to store to `running`. -/
theorem listen_stop_effective_iff (device : EDevice) (s : Pool DevicePlace) (t : Pool ProxyPlace) :
    (s.shared.life ≠ .freed →
      (StopEffective (eDeviceListenThread device) DevicePlace.left s ↔
        ∀ w ∈ s.workers, ¬w.place.BeforeStore device)) ∧
    (t.shared.life ≠ .freed →
      (StopEffective eProxyListenThread ProxyPlace.left t ↔
        ∀ w ∈ t.workers, ¬w.place.BeforeStore)) :=
  ⟨fun hlife => stopEffective_iff (device_settled device) (device_rises device) hlife,
    fun hlife => stopEffective_iff proxy_settled proxy_rises hlife⟩

/-- A device with a callback. -/
def listeningDevice : EDevice := freshDevice ⟨ascii ['d'], by decide⟩ .monitor (some 0)

/-- A listener that has come to its first poll. -/
def atPoll : List (Label ListenAnswer) :=
  [.spawn, .work 0 .quiet, .work 0 .quiet, .work 0 .quiet, .work 0 .quiet]

theorem listen_stop_effective_iff_polling :
    (StopEffective (eDeviceListenThread listeningDevice) DevicePlace.left
        ⟨⟨true, .alive, true⟩, [⟨.poll, 0⟩]⟩ ↔
      ∀ w ∈ [(⟨.poll, 0⟩ : Worker DevicePlace)], ¬w.place.BeforeStore listeningDevice) ∧
    (StopEffective eProxyListenThread ProxyPlace.left ⟨⟨true, .alive, true⟩, [⟨.poll, 0⟩]⟩ ↔
      ∀ w ∈ [(⟨.poll, 0⟩ : Worker ProxyPlace)], ¬w.place.BeforeStore) :=
  (listen_stop_effective_iff listeningDevice _ _).imp (fun hdevice => hdevice (by decide))
    fun hproxy => hproxy (by decide)

/-- A stop right after a listen is undone by the thread when it starts. -/
theorem listen_stop_early_counterexample :
    (∃ s, Run (Step (eDeviceListenThread listeningDevice)) (.start false) [.spawn] s ∧
      ¬StopEffective (eDeviceListenThread listeningDevice) DevicePlace.left s) ∧
    ∃ s, Run (Step eProxyListenThread) (.start false) [.spawn] s ∧
      ¬StopEffective eProxyListenThread ProxyPlace.left s := by
  refine ⟨⟨_, .cons rfl (.nil _), fun heffective => ?_⟩, ⟨_, .cons rfl (.nil _), fun heffective => ?_⟩⟩
  · exact absurd (heffective [.work 0 .quiet, .work 0 .quiet] _ (by simp)
      (.cons rfl (.cons rfl (.nil _)))).1 (by decide)
  · exact absurd (heffective [.work 0 .quiet, .work 0 .quiet] _ (by simp)
      (.cons rfl (.cons rfl (.nil _)))).1 (by decide)

/-! ### Destroy -/

/-- In every state a run gets to, no thread is about to use a freed device or proxy. -/
def NoUseAfterFree {ρ : Type} (P : Program ρ ListenAnswer) (s : Pool ρ) : Prop :=
  ∀ k answer, s.step P (.work k answer) ≠ .error .dangling

/-- A step of the system in which a device is freed only when all its threads have ended, and no
listen comes after. -/
def FreeingStep {ρ : Type} (P : Program ρ ListenAnswer) (s : Pool ρ) (l : Label ListenAnswer)
    (t : Pool ρ) : Prop :=
  FreesAlone P s l ∧ Step P s l t

theorem noUseAfterFree_of_run {ρ : Type} {P : Program ρ ListenAnswer} {running : Bool}
    {ls : List (Label ListenAnswer)} {s : Pool ρ} (hrun : Run (FreeingStep P) (.start running) ls s) :
    NoUseAfterFree P s := by
  have houtlived : Outlived P s :=
    hrun.invariant (fun _ _ _ hs hstep => hs.step hstep.1 hstep.2) fun _ w hw => by cases hw
  exact houtlived.no_touch

/-- **Destroy.** In every run in which devices and proxies are freed only when all their threads have
ended, and not listened to afterwards, no thread uses a freed one. -/
theorem no_use_after_destroy (device : EDevice) (running : Bool) (ls : List (Label ListenAnswer)) :
    (∀ s, Run (FreeingStep (eDeviceListenThread device)) (.start running) ls s →
      NoUseAfterFree (eDeviceListenThread device) s) ∧
    (∀ s, Run (FreeingStep eProxyListenThread) (.start running) ls s →
      NoUseAfterFree eProxyListenThread s) ∧
    ∀ s, Run (FreeingStep luaListenThread) (.start running) ls s → NoUseAfterFree luaListenThread s :=
  ⟨fun _ => noUseAfterFree_of_run, fun _ => noUseAfterFree_of_run, fun _ => noUseAfterFree_of_run⟩

/-- A device whose listener starts, is stopped, comes to its end and is destroyed. -/
def orderlyDevice : List (Label ListenAnswer) :=
  atPoll ++ [.stop, .work 0 .quiet, .work 0 .quiet, .close, .free]

theorem orderlyDevice_run : ∃ s,
    Run (FreeingStep (eDeviceListenThread listeningDevice)) (.start false) orderlyDevice s ∧
      s.shared.life = .freed :=
  ⟨_, .cons ⟨⟨by simp, by decide⟩, rfl⟩ (.cons ⟨⟨by simp, by simp⟩, rfl⟩
    (.cons ⟨⟨by simp, by simp⟩, rfl⟩ (.cons ⟨⟨by simp, by simp⟩, rfl⟩
      (.cons ⟨⟨by simp, by simp⟩, rfl⟩ (.cons ⟨⟨by simp, by simp⟩, rfl⟩
        (.cons ⟨⟨by simp, by simp⟩, rfl⟩ (.cons ⟨⟨by simp, by simp⟩, rfl⟩
          (.cons ⟨⟨by simp, by simp⟩, rfl⟩
            (.cons ⟨⟨fun _ => by unfold AllEnded; decide, by simp⟩, rfl⟩ (.nil _)))))))))), rfl⟩

theorem no_use_after_destroy_orderly : ∃ s : Pool DevicePlace, s.shared.life = .freed ∧
    NoUseAfterFree (eDeviceListenThread listeningDevice) s := by
  obtain ⟨s, hrun, hfreed⟩ := orderlyDevice_run
  exact ⟨s, hfreed, (no_use_after_destroy _ _ _).1 s hrun⟩

/-- Destroyed while its listener polls, each of them is used after it is freed. -/
theorem use_after_destroy_counterexample :
    (∃ s, Run (Step (eDeviceListenThread listeningDevice)) (.start false)
        (atPoll ++ [.close, .free]) s ∧
      s.step (eDeviceListenThread listeningDevice) (.work 0 .quiet) = .error .dangling) ∧
    (∃ s, Run (Step eProxyListenThread) (.start false) (atPoll ++ [.close, .free]) s ∧
      s.step eProxyListenThread (.work 0 .quiet) = .error .dangling) ∧
    ∃ s, Run (Step luaListenThread) (.start true)
        ([.spawn, .work 0 .quiet, .work 0 .quiet, .work 0 .quiet, .close, .free, .forget]) s ∧
      s.step luaListenThread (.work 0 .quiet) = .error .dangling := by
  refine ⟨⟨⟨⟨false, .freed, true⟩, [⟨.poll, 0⟩]⟩, ?_, rfl⟩,
    ⟨⟨⟨false, .freed, true⟩, [⟨.poll, 0⟩]⟩, ?_, rfl⟩,
    ⟨⟨⟨false, .freed, false⟩, [⟨.poll, 0⟩]⟩, ?_, rfl⟩⟩ <;>
    repeat' first | exact .nil _ | refine .cons rfl ?_

/-! ### One listener -/

/-- The thread is inside its receive loop. -/
def DevicePlace.InLoop : DevicePlace → Prop
  | .test | .poll | .recvTopic | .recvData | .call => True
  | .entry | .store | .items | .done => False

/-- At most one thread is inside its loop, and none but the one that has taken the topic of a message
can take a frame before its payload. -/
structure OneListener (device : EDevice) (s : Pool DevicePlace) : Prop where
  loop : ∀ (i j : Nat) (w v : Worker DevicePlace), s.workers[i]? = some w →
    s.workers[j]? = some v → w.place.InLoop → v.place.InLoop → i = j
  frames : ∀ (i j : Nat) (w v : Worker DevicePlace), s.workers[i]? = some w →
    s.workers[j]? = some v → w.place = .recvData → v.place = .recvTopic ∨ v.place = .recvData → i = j

/-- A step of the system in which a listen comes only when all threads of earlier ones have ended. -/
def AloneStep (device : EDevice) (s : Pool DevicePlace) (l : Label ListenAnswer)
    (t : Pool DevicePlace) : Prop :=
  SpawnsAlone (eDeviceListenThread device) s l ∧ Step (eDeviceListenThread device) s l t

theorem OneListener.of_atMostOne {device : EDevice} {s : Pool DevicePlace}
    (hone : AtMostOne (eDeviceListenThread device) s) : OneListener device s := by
  have hloop : ∀ (i j : Nat) (w v : Worker DevicePlace), s.workers[i]? = some w →
      s.workers[j]? = some v → w.place.InLoop → v.place.InLoop → i = j := by
    intro i j w v hw hv hwloop hvloop
    apply hone i j w v hw hv
    · intro hdone
      rw [hdone] at hwloop
      exact hwloop
    · intro hdone
      rw [hdone] at hvloop
      exact hvloop
  refine ⟨hloop, fun i j w v hw hv hwplace hvplace => hloop i j w v hw hv ?_ ?_⟩
  · rw [hwplace]
    exact trivial
  · rcases hvplace with hvplace | hvplace <;> rw [hvplace] <;> exact trivial

/-- **One listener.** In every run in which a listen comes only when all threads of earlier ones have
ended, at most one thread of the device is inside its loop. -/
theorem one_listener {device : EDevice} {ls : List (Label ListenAnswer)} {s : Pool DevicePlace}
    (hrun : Run (AloneStep device) (.start false) ls s) : OneListener device s := by
  have hone : AtMostOne (eDeviceListenThread device) s :=
    hrun.invariant (fun _ _ _ hs hstep => hs.step hstep.1 hstep.2) fun i j w v hw => by
      rw [Pool.start] at hw
      cases hw
  exact .of_atMostOne hone

/-- One listener is started, stopped and comes to its end, and then another one is started. -/
theorem one_listener_again : ∃ s, s.workers = [⟨.done, 0⟩, ⟨.entry, 0⟩] ∧
    OneListener listeningDevice s := by
  have hrun : ∃ s, Run (AloneStep listeningDevice) (.start false)
      [.spawn, .work 0 .quiet, .work 0 .quiet, .work 0 .quiet, .stop, .work 0 .quiet, .spawn] s ∧
      s.workers = [⟨.done, 0⟩, ⟨.entry, 0⟩] :=
    ⟨_, .cons ⟨fun _ => by unfold AllEnded; decide, rfl⟩ (.cons ⟨by simp [SpawnsAlone], rfl⟩
      (.cons ⟨by simp [SpawnsAlone], rfl⟩ (.cons ⟨by simp [SpawnsAlone], rfl⟩
        (.cons ⟨by simp [SpawnsAlone], rfl⟩ (.cons ⟨by simp [SpawnsAlone], rfl⟩
          (.cons ⟨fun _ => by unfold AllEnded; decide, rfl⟩ (.nil _))))))), rfl⟩
  obtain ⟨s, hrun, hworkers⟩ := hrun
  exact ⟨s, hworkers, one_listener hrun⟩

/-- A stop shortly followed by a listen leaves the old loop running next to the new one. -/
theorem two_listeners_counterexample :
    ∃ s, Run (Step (eDeviceListenThread listeningDevice)) (.start false)
      (atPoll ++ [.stop, .spawn] ++ List.replicate 4 (.work 1 .quiet)) s ∧
      s.workers = [⟨.poll, 0⟩, ⟨.poll, 0⟩] ∧ s.shared.flag = true ∧ ¬OneListener listeningDevice s := by
  refine ⟨⟨⟨true, .alive, true⟩, [⟨.poll, 0⟩, ⟨.poll, 0⟩]⟩, ?_, rfl, rfl, fun hone => ?_⟩
  · repeat' first | exact .nil _ | refine .cons rfl ?_
  · exact absurd (hone.loop 0 1 _ _ rfl rfl trivial trivial) (by decide)

end LibEzmb

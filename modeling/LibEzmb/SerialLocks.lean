import LibEzmb.BaseLocks
import LibEzmb.SerialManager

/-! The locks of the serial manager: what each of its functions takes and releases on each of its
paths, and what the callback of a port must not do while the read thread holds both locks. -/

open CHeap CBytes Runs Locks

namespace LibEzmb

/-- `manager->mutex`, and the `fd_mutex` of the context at an address. -/
inductive SerialLock where
  | manager
  | fd (ctx : Addr)
  deriving DecidableEq, Repr

abbrev LockOp := Op SerialLock

/-- A context in the queue, as a thread with the manager's mutex finds it. -/
abbrev PortView := Addr × SerialContext

/-! ### The calls -/

/-- `e_serial_manager_add_port`. -/
def addPortLocks (ports : List PortView) (config : Option SerialConfig) (calloc : Bool) :
    List LockOp :=
  match config with
  | none => []
  | some config =>
      .lock .manager ::
        if ports.any fun p => p.2.ser.uid = config.uid then [.unlock .manager]
        else if !calloc then [.unlock .manager]
        else [.unlock .manager]

/-- `e_serial_manager_remove_port`. -/
def removePortLocks (ports : List PortView) (uid : Option CStr) : List LockOp :=
  match uid with
  | none => []
  | some uid =>
      .lock .manager :: ((ports.flatMap fun p =>
        if p.2.ser.uid = some uid then [.lock (.fd p.1), .unlock (.fd p.1)] else []) ++
        [.unlock .manager])

/-- `e_serial_manager_write`. -/
def managerWriteLocks (ports : List PortView) (uid : Option CStr) (data : Option Bytes) :
    List LockOp :=
  match uid, data with
  | some uid, some data =>
      if data.length = 0 then []
      else .lock .manager :: match ports.find? fun p => p.2.ser.uid = some uid with
        | none => [.unlock .manager]
        | some (a, ctx) =>
            .lock (.fd a) ::
              if ctx.fd < 0 then [.unlock (.fd a), .unlock .manager]
              else [.unlock (.fd a), .unlock .manager]
  | _, _ => []

/-- `serial_write`, which looks at the descriptor before it takes the mutex. -/
def serialWriteLocks (ctx : Option PortView) : List LockOp :=
  match ctx with
  | none => []
  | some (a, ctx) => if ctx.fd < 0 then [] else [.lock (.fd a), .unlock (.fd a)]

/-- `e_serial_manager_destroy`, once the threads have ended. -/
def destroyLocks (ports : List PortView) : List LockOp :=
  .lock .manager ::
    ((ports.flatMap fun p => [.lock (.fd p.1), .unlock (.fd p.1)]) ++ [.unlock .manager])

/-! ### The threads -/

/-- A call that a `recv_cb` makes: `serial_write` on the context it is given, or
`e_serial_manager_write`. -/
inductive CallbackCall where
  | serialWrite (data : Bytes)
  | managerWrite (uid : Option CStr) (data : Option Bytes)
  deriving DecidableEq

/-- The calls that the code behind a callback pointer makes for a context and a chunk. -/
abbrev CallbackCode := Addr → PortView → Bytes → List CallbackCall

def CallbackCall.locks (ports : List PortView) (p : PortView) : CallbackCall → List LockOp
  | .serialWrite _ => serialWriteLocks (some p)
  | .managerWrite uid data => managerWriteLocks ports uid data

/-- The first section of a round of `read_thread_func`. -/
def collectLocks (okPfds : Bool) (ports : List PortView) : List LockOp :=
  .lock .manager ::
    if !okPfds then [.unlock .manager]
    else (ports.flatMap fun p =>
      if p.2.running then [.lock (.fd p.1), .unlock (.fd p.1)] else []) ++ [.unlock .manager]

/-- `ctx->fd = -1` in the view of the ports. -/
def closeView (ports : List PortView) (a : Addr) : List PortView :=
  ports.map fun p => if p.1 = a then (p.1, { p.2 with fd := -1 }) else p

/-- The body of the event loop of `read_thread_func`: the ports after it, and the locks. -/
def handleEventLocks (code : CallbackCode) (env : EventEnv) (ports : List PortView) (fd : Int)
    (revents : Revents) : List PortView × List LockOp :=
  if !revents.any then (ports, [])
  else match ports.find? fun p => p.2.fd = fd with
    | none => (ports, [])
    | some (a, ctx) =>
        if !ctx.running then (ports, [])
        else if revents.err || revents.hup then
          (closeView ports a, [.lock (.fd a), .unlock (.fd a)])
        else if revents.inp then
          if !env.okBuf then (ports, [.lock (.fd a), .unlock (.fd a)])
          else match env.read with
            | .fails eagain =>
                (if eagain then ports else closeView ports a, [.lock (.fd a), .unlock (.fd a)])
            | .data bytes =>
                let buf := bytes.take ctx.ser.maxlen.toNat
                if buf.length = 0 then (ports, [.lock (.fd a), .unlock (.fd a)])
                else
                  let calls := match ctx.recvCb with
                    | none => []
                    | some cb => code cb (a, ctx) buf
                  (ports, .lock (.fd a) :: (calls.flatMap (CallbackCall.locks ports (a, ctx)) ++
                    [.unlock (.fd a)]))
        else (ports, [])

/-- The events in the order of the array, from index `i` on. -/
def handleEventsLocks (code : CallbackCode) (env : Nat → EventEnv) :
    Nat → List (Int × Revents) → List PortView → List LockOp
  | _, [], _ => []
  | i, e :: events, ports =>
      let (ports, ops) := handleEventLocks code (env i) ports e.1 e.2
      ops ++ handleEventsLocks code env (i + 1) events ports

/-- The second section of a round of `read_thread_func`. -/
def handleLocks (code : CallbackCode) (env : Nat → EventEnv) (ports : List PortView)
    (events : List (Int × Revents)) : List LockOp :=
  .lock .manager :: (handleEventsLocks code env 0 events ports ++ [.unlock .manager])

/-- A round of `monitor_thread_func`. -/
def monitorLocks (ports : List PortView) : List LockOp :=
  .lock .manager :: ((ports.flatMap fun p =>
    if p.2.running then [.lock (.fd p.1), .unlock (.fd p.1)] else []) ++ [.unlock .manager])

inductive SerialRole where
  | reader
  | monitor
  | caller
  deriving DecidableEq, Repr

/-- What the threads run, whatever the queue holds when they do and whatever the system answers. The
numbers in the poll array are those of open descriptors. -/
inductive SerialProgram (code : CallbackCode) : SerialRole → List LockOp → Prop where
  | collect (okPfds : Bool) (ports : List PortView) :
      SerialProgram code .reader (collectLocks okPfds ports)
  | handle (env : Nat → EventEnv) (ports : List PortView) (events : List (Int × Revents))
      (hfds : ∀ e ∈ events, 0 ≤ e.1) :
      SerialProgram code .reader (handleLocks code env ports events)
  | monitor (ports : List PortView) : SerialProgram code .monitor (monitorLocks ports)
  | addPort (ports : List PortView) (config : Option SerialConfig) (calloc : Bool) :
      SerialProgram code .caller (addPortLocks ports config calloc)
  | removePort (ports : List PortView) (uid : Option CStr) :
      SerialProgram code .caller (removePortLocks ports uid)
  | managerWrite (ports : List PortView) (uid : Option CStr) (data : Option Bytes) :
      SerialProgram code .caller (managerWriteLocks ports uid data)
  | serialWrite (ctx : Option PortView) : SerialProgram code .caller (serialWriteLocks ctx)
  | destroy (ports : List PortView) : SerialProgram code .caller (destroyLocks ports)

/-! ### The order of the locks -/

/-- The manager's mutex comes before those of the contexts. -/
def SerialLock.rank : SerialLock → Nat
  | .manager => 0
  | .fd _ => 1

/-- What the call does with the locks that the read thread holds: it asks for one of them. -/
def CallbackCall.takesLock : CallbackCall → Bool
  | .serialWrite _ => true
  | .managerWrite (some _) (some data) => !data.isEmpty
  | .managerWrite _ _ => false

/-- For a chunk that a running port with a callback can get, the callback makes no call that asks for
a lock. -/
def QuietCallbacks (code : CallbackCode) : Prop :=
  ∀ (cb : Addr) (p : PortView) (chunk : Bytes), p.2.running = true → p.2.recvCb = some cb →
    0 ≤ p.2.fd → chunk ≠ [] → chunk.length ≤ p.2.ser.maxlen.toNat →
      ∀ call ∈ code cb p chunk, call.takesLock = false

section Orderly

variable {code : CallbackCode} {ports : List PortView}

theorem CallbackCall.locks_of_quiet {call : CallbackCall} (hquiet : call.takesLock = false)
    (ports : List PortView) (p : PortView) : call.locks ports p = [] := by
  cases call with
  | serialWrite data => cases hquiet
  | managerWrite uid data =>
      match uid, data with
      | some uid, some data =>
          have hnil : data = [] := by simpa [takesLock] using hquiet
          simp [locks, managerWriteLocks, hnil]
      | none, _ => rfl
      | some uid, none => rfl

/-- Where both locks may be taken, one inside the other, and each alone. -/
structure Permits (may : List SerialLock → SerialLock → Prop) (held : List SerialLock) : Prop where
  manager : may held .manager
  inner : ∀ a, may (.manager :: held) (.fd a)
  outer : ∀ a, may held (.fd a)

variable {may : List SerialLock → SerialLock → Prop} {held : List SerialLock}

/-- A walk over the queue that takes and releases the `fd_mutex` of some of the contexts. -/
theorem walk_bracketed (hmay : ∀ a, may held (.fd a)) (visits : PortView → Prop)
    [DecidablePred visits] (ports : List PortView) :
    Bracketed may held held (ports.flatMap fun p =>
      if visits p then [.lock (.fd p.1), .unlock (.fd p.1)] else []) := by
  apply Bracketed.flatMap
  intro p _
  by_cases hp : visits p
  · rw [if_pos hp]
    exact .pair (hmay p.1)
  · rw [if_neg hp]
    rfl

theorem addPortLocks_bracketed (hmay : Permits may held) (ports : List PortView)
    (config : Option SerialConfig) (calloc : Bool) :
    Bracketed may held held (addPortLocks ports config calloc) := by
  cases config with
  | none => rfl
  | some config =>
      unfold addPortLocks
      dsimp only
      split_ifs <;> exact .pair hmay.manager

theorem removePortLocks_bracketed (hmay : Permits may held) (ports : List PortView)
    (uid : Option CStr) : Bracketed may held held (removePortLocks ports uid) := by
  cases uid with
  | none => rfl
  | some uid =>
      exact .bracket hmay.manager (walk_bracketed hmay.inner (fun p => p.2.ser.uid = some uid) ports)

theorem managerWriteLocks_bracketed (hmay : Permits may held) (ports : List PortView)
    (uid : Option CStr) (data : Option Bytes) :
    Bracketed may held held (managerWriteLocks ports uid data) := by
  unfold managerWriteLocks
  split
  · split
    · rfl
    · split
      · exact .pair hmay.manager
      · next a ctx _ =>
          have hboth := Bracketed.bracket hmay.manager (Bracketed.pair (hmay.inner a))
          split_ifs <;> exact hboth
  · rfl

theorem serialWriteLocks_bracketed (hmay : Permits may held) (ctx : Option PortView) :
    Bracketed may held held (serialWriteLocks ctx) := by
  match ctx with
  | none => rfl
  | some (a, ctx) =>
      unfold serialWriteLocks
      dsimp only
      split_ifs
      · rfl
      · exact .pair (hmay.outer a)

/-- The calls that a callback makes for a chunk that a port can get go well with the locks that the
read thread holds. -/
def CallsBracketed (may : List SerialLock → SerialLock → Prop) (held : List SerialLock)
    (code : CallbackCode) : Prop :=
  ∀ (ports : List PortView) (cb : Addr) (p : PortView) (chunk : Bytes), p.2.running = true →
    p.2.recvCb = some cb → 0 ≤ p.2.fd → chunk ≠ [] → chunk.length ≤ p.2.ser.maxlen.toNat →
      ∀ call ∈ code cb p chunk,
        Bracketed may (.fd p.1 :: held) (.fd p.1 :: held) (call.locks ports p)

theorem handleEventLocks_bracketed (hmay : ∀ a, may held (.fd a))
    (hcalls : CallsBracketed may held code) (env : EventEnv) (ports : List PortView) {fd : Int}
    (hfd : 0 ≤ fd) (revents : Revents) :
    Bracketed may held held (handleEventLocks code env ports fd revents).2 := by
  unfold handleEventLocks
  split
  · rfl
  · split
    · rfl
    · next a ctx hfind =>
        have hctx : ctx.fd = fd := by simpa using List.find?_some hfind
        split
        · rfl
        · next hrunning =>
            split
            · exact .pair (hmay a)
            · split
              · split
                · exact .pair (hmay a)
                · split
                  · exact .pair (hmay a)
                  · next bytes _ =>
                      dsimp only
                      split
                      · exact .pair (hmay a)
                      · next hlen =>
                          -- the callback runs under both locks
                          apply Bracketed.bracket (hmay a)
                          apply Bracketed.flatMap
                          intro call hcall
                          cases hcb : ctx.recvCb with
                          | none => simp [hcb] at hcall
                          | some cb =>
                              simp only [hcb] at hcall
                              exact hcalls ports cb (a, ctx) _ (by simpa using hrunning) hcb
                                (hctx ▸ hfd) (fun hnil => hlen (by rw [hnil]; rfl))
                                (List.length_take_le _ _) call hcall
              · rfl

theorem handleEventsLocks_bracketed (hmay : ∀ a, may held (.fd a))
    (hcalls : CallsBracketed may held code) (env : Nat → EventEnv) (i : Nat)
    {events : List (Int × Revents)} (hfds : ∀ e ∈ events, 0 ≤ e.1) (ports : List PortView) :
    Bracketed may held held (handleEventsLocks code env i events ports) := by
  induction events generalizing i ports with
  | nil => rfl
  | cons e events ih =>
      rw [List.forall_mem_cons] at hfds
      exact (handleEventLocks_bracketed hmay hcalls (env i) ports hfds.1 e.2).append (ih _ hfds.2 _)

theorem serialProgram_bracketed (hmay : Permits may []) (hcalls : CallsBracketed may [.manager] code)
    {role : SerialRole} {program : List LockOp} (hprogram : SerialProgram code role program) :
    Bracketed may [] [] program := by
  cases hprogram with
  | collect okPfds ports =>
      cases okPfds with
      | false => exact .pair hmay.manager
      | true =>
          exact .bracket hmay.manager (walk_bracketed hmay.inner (fun p => p.2.running = true) ports)
  | handle env ports events hfds =>
      exact .bracket hmay.manager (handleEventsLocks_bracketed hmay.inner hcalls env 0 hfds ports)
  | monitor ports =>
      exact .bracket hmay.manager (walk_bracketed hmay.inner (fun p => p.2.running = true) ports)
  | addPort => exact addPortLocks_bracketed hmay _ _ _
  | removePort => exact removePortLocks_bracketed hmay _ _
  | managerWrite => exact managerWriteLocks_bracketed hmay _ _ _
  | serialWrite => exact serialWriteLocks_bracketed hmay _
  | destroy ports =>
      exact .bracket hmay.manager (.flatMap fun p _ => .pair (hmay.inner p.1))

/-- Every program releases what it takes, whatever the callbacks in it do. -/
theorem serialProgram_releases {role : SerialRole} {program : List LockOp}
    (hprogram : SerialProgram code role program) : Releases program := by
  have hany : ∀ held, Permits (fun _ _ => True) held :=
    fun _ => ⟨trivial, fun _ => trivial, fun _ => trivial⟩
  refine serialProgram_bracketed (hany []) (fun ports cb p chunk _ _ _ _ _ call _ => ?_) hprogram
  cases call with
  | serialWrite data => exact serialWriteLocks_bracketed (hany _) (some p)
  | managerWrite uid data => exact managerWriteLocks_bracketed (hany _) ports uid data

/-- With quiet callbacks every program takes the manager's mutex first. -/
theorem serialProgram_orderly (hquiet : QuietCallbacks code) {role : SerialRole}
    {program : List LockOp} (hprogram : SerialProgram code role program) :
    Orderly SerialLock.rank program := by
  have hmay : Permits (Above SerialLock.rank) [] :=
    ⟨by simp [Above], by simp [Above, SerialLock.rank], by simp [Above]⟩
  refine serialProgram_bracketed hmay (fun ports cb p chunk hrun hcb hfd hne hlen call hcall => ?_)
    hprogram
  rw [call.locks_of_quiet (hquiet cb p chunk hrun hcb hfd hne hlen call hcall)]
  rfl

end Orderly

/-! ### A callback that asks for a lock -/

/-- The first call that asks for a lock asks for one of the two that the read thread holds. -/
theorem first_request {calls : List CallbackCall} {call : CallbackCall} (hcall : call ∈ calls)
    (htakes : call.takesLock = true) (ports : List PortView) {p : PortView} (hopen : 0 ≤ p.2.fd) :
    ∃ l ops, calls.flatMap (CallbackCall.locks ports p) = .lock l :: ops ∧
      l ∈ [.fd p.1, .manager] := by
  induction calls with
  | nil => cases hcall
  | cons first calls ih =>
      rw [List.flatMap_cons]
      cases hfirst : first.takesLock with
      | false =>
          rw [first.locks_of_quiet hfirst, List.nil_append]
          refine ih ((List.mem_cons.mp hcall).resolve_left fun heq => ?_)
          rw [← heq, htakes] at hfirst
          cases hfirst
      | true =>
          cases first with
          | serialWrite data =>
              have hpair : (CallbackCall.serialWrite data).locks ports p =
                  [.lock (.fd p.1), .unlock (.fd p.1)] := by
                simp only [CallbackCall.locks, serialWriteLocks, if_neg (Int.not_lt.mpr hopen)]
              exact ⟨.fd p.1, _, by rw [hpair]; rfl, by simp⟩
          | managerWrite uid data =>
              match uid, data with
              | some uid, some data =>
                  have hdata : data.length ≠ 0 := by
                    simpa [CallbackCall.takesLock] using hfirst
                  simp only [CallbackCall.locks, managerWriteLocks, if_neg hdata]
                  exact ⟨.manager, _, rfl, by simp⟩
              | none, _ => cases hfirst
              | some uid, none => cases hfirst

/-- A port alone in the queue, and input for it. -/
def inputFor (chunk : Bytes) : Nat → EventEnv := fun _ => ⟨true, .data chunk⟩

def pollIn : Revents := ⟨false, false, true, false⟩

/-- The read thread comes to the callback with both locks. -/
theorem handleLocks_callback (code : CallbackCode) {cb : Addr} {p : PortView} {chunk : Bytes}
    (hrunning : p.2.running = true) (hcb : p.2.recvCb = some cb) (hne : chunk ≠ [])
    (hlen : chunk.length ≤ p.2.ser.maxlen.toNat) :
    handleLocks code (inputFor chunk) [p] [(p.2.fd, pollIn)] =
      .lock .manager :: .lock (.fd p.1) ::
        ((code cb p chunk).flatMap (CallbackCall.locks [p] p) ++
          [.unlock (.fd p.1), .unlock .manager]) := by
  have hbuf : chunk.take p.2.ser.maxlen.toNat = chunk := List.take_of_length_le hlen
  have hlength : chunk.length ≠ 0 := fun h => hne (List.eq_nil_of_length_eq_zero h)
  obtain ⟨a, ctx⟩ := p
  simp only at hrunning hcb hbuf
  simp [handleLocks, handleEventsLocks, handleEventLocks, inputFor, pollIn, Revents.any, hrunning,
    hcb, hbuf, hlength]

/-- If the read thread never asks for a lock it holds, no callback asks for one. -/
theorem quiet_of_noDeadlock {code : CallbackCode}
    (hsafe : ∀ (roles : List SerialRole) (ls : List (Label SerialLock))
      (s : Pool SerialRole SerialLock),
      Run (Pool.Step (SerialProgram code)) (Pool.idle roles) ls s → s.NoDeadlock) :
    QuietCallbacks code := by
  intro cb p chunk hrunning hcb hopen hne hlen call hcall
  by_contra htakes
  obtain ⟨l, ops, hrequest, hheld⟩ := first_request hcall (eq_true_of_ne_false htakes) [p] hopen
  have hprogram : SerialProgram code .reader
      (handleLocks code (inputFor chunk) [p] [(p.2.fd, pollIn)]) :=
    .handle _ _ _ (by simpa using hopen)
  rw [handleLocks_callback code hrunning hcb hne hlen, hrequest] at hprogram
  have hrun := Pool.run_two_locks (by simp) hprogram
  exact (hsafe _ _ _ hrun).own 0 ⟨_, _, l, _, rfl, rfl, rfl, hheld⟩

/-- **Lock discipline.** The threads and callers of the manager never ask for a lock they hold and
never wait in a circle, and each path releases what it takes, exactly when the callbacks make no call
that asks for a lock. -/
theorem serial_lock_discipline_iff (code : CallbackCode) :
    ((∀ (roles : List SerialRole) (ls : List (Label SerialLock)) (s : Pool SerialRole SerialLock),
      Run (Pool.Step (SerialProgram code)) (Pool.idle roles) ls s → s.NoDeadlock) ∧
      ∀ role program, SerialProgram code role program → Releases program) ↔
      QuietCallbacks code := by
  constructor
  · exact fun hboth => quiet_of_noDeadlock hboth.1
  · intro hquiet
    exact ⟨fun roles ls s hrun =>
        Pool.noDeadlock_of_run (fun _ _ hprogram => serialProgram_orderly hquiet hprogram) hrun,
      fun _ _ hprogram => serialProgram_releases hprogram⟩

/-- A callback that answers on the port it was called for. -/
def answeringCallback : CallbackCode := fun _ _ chunk => [.serialWrite chunk]

/-- An open port with a callback, for chunks of up to 16 bytes. -/
def openPort : PortView :=
  (0, ⟨3, true, some 0, ⟨none, none, 9600, 8, 1, 'n', 0, 16, 100⟩, none⟩)

/-- The read thread asks for the `fd_mutex` it holds. -/
theorem callback_write_counterexample :
    ¬∀ (roles : List SerialRole) (ls : List (Label SerialLock)) (s : Pool SerialRole SerialLock),
      Run (Pool.Step (SerialProgram answeringCallback)) (Pool.idle roles) ls s → s.NoDeadlock := by
  intro hsafe
  have hquiet := quiet_of_noDeadlock hsafe 0 openPort [1] rfl rfl (by decide) (by decide) (by decide)
    (.serialWrite [1]) (List.mem_singleton_self _)
  cases hquiet

end LibEzmb

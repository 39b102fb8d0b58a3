import LibEzmb.BaseChain

/-! The queue of e_queue.c on a heap of nodes: a dummy head `top`, a tail pointer `rear` and a
counter. Data pointers are opaque, so freeing the data of a node is recorded as output. -/

open CHeap

namespace LibEzmb

/-- `void *`. -/
abbrev Ptr := Option Addr

/-- `e_qnode_t`. -/
abbrev EQnode := Cell Ptr

/-- `e_queue_t`. -/
structure EQueue where
  top : Option Addr
  rear : Option Addr
  size : Int
  constData : Int
  deriving DecidableEq, Repr

abbrev QHeap := Heap EQnode

def eQueueEmpty (h : QHeap) (q : EQueue) : Except Fault Bool := do
  let top ← h.deref q.top
  .ok top.next.isNone

/-- The fresh dummy node keeps the junk `malloc` left in its data field. -/
def eQueueInit (M : Malloc EQnode) (h : QHeap) (constData : Int) : QHeap × EQueue :=
  let node := M.addr h
  (h.set node { data := (M.junk h).data, next := none },
    { top := some node, rear := some node, size := 0, constData := constData })

def eQueueSize (q : EQueue) : Int := q.size

def eQueuePush (M : Malloc EQnode) (h : QHeap) (q : EQueue) (data : Ptr) :
    Except Fault (QHeap × EQueue) :=
  if q.rear = none ∨ q.top = none then .ok (h, q)
  else do
    let node := M.addr h
    let h := h.set node { data := data, next := none }
    let rear ← h.deref q.rear
    let h ← h.store q.rear { rear with next := some node }
    .ok (h, { q with rear := some node, size := q.size + 1 })

/-- The popped data, or the null pointer when there is nothing to pop. -/
def eQueuePop (h : QHeap) (q : EQueue) : Except Fault (QHeap × EQueue × Ptr) :=
  if q.rear = none ∨ q.top = none then .ok (h, q, none)
  else do
    let top ← h.deref q.top
    match top.next with
    | none => .ok (h, q, none)
    | some node => do
        let n ← h.deref (some node)
        let h ← h.store q.top { top with next := n.next }
        let q := if q.rear = some node then { q with rear := q.top } else q
        let h ← h.release (some node)
        .ok (h, { q with size := q.size - 1 }, n.data)

/-- The state of the loop that `e_queue_clear` and `e_queue_destroy` share: heap, queue and the
data pointers given to `free` so far. -/
abbrev ClearState := QHeap × EQueue × List Ptr

def clearMore (s : ClearState) : Except Fault Bool := do
  .ok !(← eQueueEmpty s.1 s.2.1)

def clearRound (s : ClearState) : Except Fault ClearState := do
  let (h, q, data) ← eQueuePop s.1 s.2.1
  .ok (h, q, if q.constData = 0 then s.2.2 ++ [data] else s.2.2)

/-- `while (!e_queue_empty(q)) { void *data = e_queue_pop(q); if (!q->const_data) free(data); }` -/
def clearLoop (h : QHeap) (q : EQueue) : Except Fault ClearState :=
  whileLoop clearMore clearRound h.bound (h, q, [])

def eQueueClear (h : QHeap) (q : EQueue) : Except Fault ClearState := do
  let (h, q, freed) ← clearLoop h q
  .ok (h, { q with size := 0 }, freed)

def eQueueDestroy (h : QHeap) (q : EQueue) : Except Fault ClearState := do
  let (h, q, freed) ← clearLoop h q
  let h ← h.release q.top
  .ok (h, { q with rear := none, top := none, size := 0 }, freed)

/-- `callback(arg, data)` acts on the caller's own state; its result is ignored. -/
def eQueueForeach {σ : Type} (h : QHeap) (q : EQueue) (arg : σ) (callback : σ → Ptr → σ) :
    Except Fault σ := do
  if ← eQueueEmpty h q then .ok arg
  else
    let top ← h.deref q.top
    walk h (fun arg data => .ok (callback arg data, false)) h.bound top.next arg

end LibEzmb

import TestLibuv.Tcp

/-!
# One TCP handle

What concerns one TCP handle of a loop: its flags and counters, the requests it waits for, and
whether the loop is in a callback of it. The counters count the requests and the callback, and a
handle whose endgame has something to do waits for it. So it behaves as `UvTcp` says.
-/

namespace TestLibuv

namespace UvTcp

/-- What an event means for the handle; none where the handle cannot take it. A handle that was
never initialised is `none`. -/
def event : Option (UvTcp ℕ) → TcpEvent → Option (Option (UvTcp ℕ))
  | none, .init _ => some (some .init)
  | some h, .init _ => if h.phase = .closed then some (some .init) else none
  | some h, .connect _ req =>
    if (h.connect req 0).1 = 0 then some (some (h.connect req 0).2) else none
  | some h, .connected _ req status =>
    if h.connectReq = some req ∧ ¬ (status = 0 ∧ h.isClosing = true) then
      some (some (h.connected status))
    else none
  | some h, .accept _ => if h.live && !h.connection then some (some h.accept) else none
  | some h, .readStart _ => if (h.readStart 0).1 = 0 then some (some (h.readStart 0).2) else none
  | some h, .recv _ => if h.reading then some (some h) else none
  | some h, .readError _ nread =>
    if h.reading = true ∧ nread < 0 then some (some (h.readError nread)) else none
  | some h, .write _ req => if (h.write req 0).1 = 0 then some (some (h.write req 0).2) else none
  | some h, .written _ req _ =>
    if req ∈ h.writeReqs then some (some { h with writeReqs := h.writeReqs.erase req }) else none
  | some h, .shutdown _ req =>
    if (h.shutdown req).1 = 0 then some (some (h.shutdown req).2) else none
  | some h, .shutdownDone _ req _ =>
    if h.shutdownEnds = true ∧ h.shutdownReq = some req then
      some (some { h with shutdownReq := none })
    else none
  | some h, .closing _ => if h.isClosing then none else some (some h.close)
  | some h, .close _ _ => if h.ends then some (some h.finish) else none
  | none, _ => none

end UvTcp

def Submit.isFailed : Submit → Bool
  | failed _ => true
  | _ => false

def TcpWork.isRead : TcpWork → Bool
  | read _ _ => true
  | _ => false

def TcpWork.isWrite : TcpWork → Bool
  | write _ => true
  | _ => false

def TcpWork.isShutdown : TcpWork → Bool
  | shutdown _ => true
  | _ => false

/-- What concerns one handle: the requests of each type that wait for their callbacks, in the order
they were given in, whether its read request is under way, and the callback the loop is in. -/
@[ext] structure TcpView where
  base : HandleBase
  tcp : TcpHandle
  connects : List ℕ
  writes : List ℕ
  shutdowns : List ℕ
  inFlight : Bool
  work : Option TcpWork

namespace TcpView

/-- The number of its requests that wait for their callbacks. -/
def count (v : TcpView) : ℕ := v.connects.length + v.writes.length + v.shutdowns.length

def phase (v : TcpView) : UvPhase :=
  if v.base.closed then .closed else if v.base.closing then .closing else .active

/-- The handle as its user sees it. -/
def uvTcp (v : TcpView) : Option (UvTcp ℕ) :=
  if v.base.ref then some {
    phase := v.phase
    connection := v.tcp.connection
    readable := v.tcp.readable
    writable := v.tcp.writable
    reading := v.tcp.reading
    connectReq := v.connects.head?
    shutdownReq := v.shutdowns.head?
    writeReqs := v.writes } else none

/-- What holds of a handle that is initialised and not closed. -/
structure Ok (v : TcpView) : Prop where
  used : v.base.ref = true ∧ v.base.closed = false
  reqsPending : v.tcp.reqsPending = v.count + v.inFlight.toNat + v.work.isSome.toNat
  writeReqsPending : v.tcp.writeReqsPending = v.writes.length + (v.work.any TcpWork.isWrite).toNat
  activecnt : v.tcp.activecnt = v.count + v.tcp.reading.toNat
  active : v.base.closing = false → (v.base.active = true ↔ 0 < v.tcp.activecnt)
  connects : v.connects.length ≤ 1 ∧ (v.tcp.connection = true → v.connects = [])
  shutdowns : v.shutdowns = if v.work.any TcpWork.isShutdown then [] else v.tcp.shutdownReq.toList
  inShutdown : v.work.any TcpWork.isShutdown = true → v.tcp.shutdownReq.isSome = true
  shutdownReq : v.tcp.shutdownReq.isSome = true → v.tcp.connection = true
  readable : v.tcp.readable = true → v.tcp.connection = true ∧ v.base.closing = false
  writable : v.tcp.writable = true →
    v.tcp.connection = true ∧ v.base.closing = false ∧ v.tcp.shutdownReq = none
  reading : v.tcp.reading = true → v.base.closing = false ∧ v.tcp.started = true
    ∧ (v.inFlight = true ∨ v.work.any TcpWork.isRead = true)
  started : v.tcp.started = true → v.tcp.connection = true
  inFlight : v.inFlight = true → v.tcp.started = true ∧ v.work.any TcpWork.isRead = false
  inRead : v.work.any TcpWork.isRead = true → v.tcp.started = true
  readPending : v.tcp.readPending = true → v.inFlight = true
  due : v.base.closing = true → v.tcp.reqsPending = 0 → v.base.endgameQueued = true
  dueShutdown : v.tcp.shutdownReq.isSome = true → v.work.any TcpWork.isShutdown = false →
    v.tcp.writeReqsPending = 0 → v.base.endgameQueued = true

variable {v : TcpView} {req : ℕ}

/-- The endgame was put into the list, if it was not in it. -/
theorem Ok.wantEndgame (h : v.Ok) :
    Ok { v with base := { v.base with endgameQueued := true } } :=
  { h with due := fun _ _ => rfl, dueShutdown := fun _ _ _ => rfl }

/-! ## What the user calls -/

/-- A handle that was initialised where `b` was. -/
def init (b : HandleBase) : TcpView where
  base := { b with
    ref := true, active := false, closing := false, closed := false, endgameQueued := false }
  tcp := .blank
  connects := []
  writes := []
  shutdowns := []
  inFlight := false
  work := none

theorem ok_init (b : HandleBase) : (init b).Ok := by
  constructor <;> simp [init, TcpHandle.blank, count]

theorem uvTcp_init (b : HandleBase) : (init b).uvTcp = some .init := rfl

/-- A connection is being made. -/
def connect (v : TcpView) (req : ℕ) : TcpView :=
  { v with
    base := { v.base with active := true }
    tcp := { v.tcp with
      reqsPending := v.tcp.reqsPending + 1, activecnt := v.tcp.activecnt + 1 }
    connects := v.connects ++ [req] }

theorem Ok.connect (h : v.Ok) (hno : v.connects = [])
    (hc : v.tcp.connection = false) : (v.connect req).Ok
      ∧ ∀ a, UvTcp.event v.uvTcp (.connect a req) = some (v.connect req).uvTcp := by
  have hpend := h.reqsPending
  have hact := h.activecnt
  constructor
  · refine { h with
      reqsPending := ?_, activecnt := ?_, active := ?_, connects := ?_, due := ?_ }
    · simp [TcpView.connect, count] at hpend ⊢
      omega
    · simp [TcpView.connect, count] at hact ⊢
      omega
    · simp [TcpView.connect]
    · simp [TcpView.connect, hno, hc]
    · simp [TcpView.connect]
  · intro a
    simp [UvTcp.event, uvTcp, h.used, UvTcp.connect, hno, hc, TcpView.connect, phase]

/-- A connection was accepted. -/
def accept (v : TcpView) : TcpView :=
  { v with tcp := { v.tcp with connection := true, readable := true, writable := true } }

theorem Ok.accept (h : v.Ok) (hcl : v.base.closing = false) (hno : v.connects = [])
    (hc : v.tcp.connection = false) :
    v.accept.Ok ∧ ∀ a, UvTcp.event v.uvTcp (.accept a) = some v.accept.uvTcp := by
  have hsh : v.tcp.shutdownReq = none := by
    rw [← Option.not_isSome_iff_eq_none]
    intro hs
    simp [h.shutdownReq hs] at hc
  constructor
  · refine { h with
      connects := ?_, shutdownReq := ?_, readable := ?_, writable := ?_, started := ?_ } <;>
      simp [TcpView.accept, hcl, hno, hsh]
  · intro a
    simp [UvTcp.event, uvTcp, h.used, TcpView.accept, phase, UvTcp.accept, UvTcp.live, hcl, hc]

/-- A read was posted: the flag is not set where it failed. -/
def queueRead (v : TcpView) (failed : Bool) : TcpView :=
  { v with
    tcp := { v.tcp with
      readPending := v.tcp.readPending || !failed, reqsPending := v.tcp.reqsPending + 1 }
    inFlight := true }

/-- Reading was started. -/
def startReading (v : TcpView) : TcpView :=
  { v with
    base := { v.base with active := true }
    tcp := { v.tcp with reading := true, started := true, activecnt := v.tcp.activecnt + 1 } }

theorem Ok.readStart (h : v.Ok) (hs : v.tcp.started = false) (hr : v.tcp.readable = true)
    (failed : Bool) : (v.startReading.queueRead failed).Ok ∧ ∀ a,
      UvTcp.event v.uvTcp (.readStart a) = some (v.startReading.queueRead failed).uvTcp := by
  have hoff : v.tcp.reading = false := by
    rw [Bool.eq_false_iff]
    intro hon
    simp [(h.reading hon).2.1] at hs
  have hidle : v.inFlight = false := by
    rw [Bool.eq_false_iff]
    intro hin
    simp [(h.inFlight hin).1] at hs
  have hread : v.work.any TcpWork.isRead = false := by
    rw [Bool.eq_false_iff]
    intro hin
    simp [h.inRead hin] at hs
  obtain ⟨hc, hcl⟩ := h.readable hr
  have hpend := h.reqsPending
  have hact := h.activecnt
  constructor
  · refine { h with
      reqsPending := ?_, activecnt := ?_, active := ?_, reading := ?_, started := ?_,
      inFlight := ?_, inRead := ?_, readPending := ?_, due := ?_ }
    · simp [queueRead, startReading, count, hidle] at hpend ⊢
      omega
    · simp [queueRead, startReading, count, hoff] at hact ⊢
      omega
    all_goals simp [queueRead, startReading, hcl, hc, hread]
  · intro a
    simp [UvTcp.event, uvTcp, h.used, queueRead, startReading, phase, UvTcp.readStart, hoff, hr]

/-- A buffer is being written. -/
def write (v : TcpView) (req : ℕ) : TcpView :=
  { v with
    base := { v.base with active := true }
    tcp := { v.tcp with
      reqsPending := v.tcp.reqsPending + 1
      writeReqsPending := v.tcp.writeReqsPending + 1
      activecnt := v.tcp.activecnt + 1 }
    writes := v.writes ++ [req] }

theorem Ok.write (h : v.Ok) (hw : v.tcp.writable = true) (req : ℕ) : (v.write req).Ok
    ∧ ∀ a, UvTcp.event v.uvTcp (.write a req) = some (v.write req).uvTcp := by
  have hpend := h.reqsPending
  have hwrites := h.writeReqsPending
  have hact := h.activecnt
  constructor
  · refine { h with
      reqsPending := ?_, writeReqsPending := ?_, activecnt := ?_, active := ?_, due := ?_,
      dueShutdown := ?_ }
    · simp [TcpView.write, count] at hpend ⊢
      omega
    · simp [TcpView.write] at hwrites ⊢
      omega
    · simp [TcpView.write, count] at hact ⊢
      omega
    all_goals simp [TcpView.write]
  · intro a
    simp [UvTcp.event, uvTcp, h.used, UvTcp.write, hw, TcpView.write, phase]

/-- The connection is being shut down. -/
def shutdown (v : TcpView) (req : ℕ) : TcpView :=
  { v with
    base := { v.base with active := true, endgameQueued := true }
    tcp := { v.tcp with
      writable := false
      shutdownReq := some req
      reqsPending := v.tcp.reqsPending + 1
      activecnt := v.tcp.activecnt + 1 }
    shutdowns := v.shutdowns ++ [req] }

theorem Ok.shutdown (h : v.Ok) (hw : v.tcp.writable = true) (req : ℕ) : (v.shutdown req).Ok
    ∧ ∀ a, UvTcp.event v.uvTcp (.shutdown a req) = some (v.shutdown req).uvTcp := by
  obtain ⟨hc, hcl, hnone⟩ := h.writable hw
  have hin : v.work.any TcpWork.isShutdown = false := by
    rw [Bool.eq_false_iff]
    intro hin
    simpa [hnone] using h.inShutdown hin
  have hno : v.shutdowns = [] := by simpa [hin, hnone] using h.shutdowns
  have hpend := h.reqsPending
  have hact := h.activecnt
  constructor
  · refine { h with
      reqsPending := ?_, activecnt := ?_, active := ?_, shutdowns := ?_, inShutdown := ?_,
      shutdownReq := ?_, writable := ?_, due := ?_, dueShutdown := ?_ }
    · simp [TcpView.shutdown, count] at hpend ⊢
      omega
    · simp [TcpView.shutdown, count] at hact ⊢
      omega
    all_goals simp [TcpView.shutdown, hno, hin, hc]
  · intro a
    simp [UvTcp.event, uvTcp, h.used, UvTcp.shutdown, hw, TcpView.shutdown, phase, hno]

/-- The handle is being closed, and its endgame is due if it waits for nothing. -/
def close (v : TcpView) (cb : Option ℕ) : TcpView :=
  { v with
    base := { v.base with
      closeCb := cb
      closing := true
      active := false
      endgameQueued := v.base.endgameQueued || decide (v.tcp.reqsPending = 0) }
    tcp := { v.tcp with
      reading := false
      readable := false
      writable := false
      activecnt := v.tcp.activecnt - v.tcp.reading.toNat } }

theorem Ok.close (h : v.Ok) (hcl : v.base.closing = false) (cb : Option ℕ) : (v.close cb).Ok
    ∧ ∀ a, UvTcp.event v.uvTcp (.closing a) = some (v.close cb).uvTcp := by
  have hact := h.activecnt
  constructor
  · refine { h with
      activecnt := ?_, active := ?_, readable := ?_, writable := ?_, reading := ?_, due := ?_,
      dueShutdown := ?_ }
    · simp only [TcpView.close, count, Bool.toNat_false] at hact ⊢
      omega
    · simp [TcpView.close]
    · simp [TcpView.close]
    · simp [TcpView.close]
    · simp [TcpView.close]
    · simp +contextual [TcpView.close]
    · intro hs hin hz
      simp [TcpView.close, h.dueShutdown hs hin hz]
  · intro a
    simp [UvTcp.event, uvTcp, h.used, TcpView.close, phase, UvTcp.close, UvTcp.isClosing, hcl,
      UvPhase.isClosing]

/-! ## What the loop does -/

/-- One request or reading no longer keeps the handle active. -/
def decreaseActive (v : TcpView) : TcpView :=
  { v with
    base := { v.base with
      active := v.base.active && (v.base.closing || decide (v.tcp.activecnt - 1 ≠ 0)) }
    tcp := { v.tcp with activecnt := v.tcp.activecnt - 1 } }

theorem Ok.active_decreaseActive (h : v.Ok) (hcl : v.base.closing = false) :
    v.decreaseActive.base.active = true ↔ 0 < v.decreaseActive.tcp.activecnt := by
  have hact := h.active hcl
  simp only [decreaseActive, hcl, Bool.false_or, Bool.and_eq_true, decide_eq_true_eq, hact]
  omega

/-- The callback of a connection request is made. -/
def connected (v : TcpView) (a : ℕ) (status : ℤ) : TcpView :=
  { v.decreaseActive with
    tcp := { v.decreaseActive.tcp with
      connection := v.tcp.connection || decide (status = 0)
      readable := v.tcp.readable || decide (status = 0)
      writable := v.tcp.writable || decide (status = 0) }
    connects := []
    work := some (.done a) }

theorem Ok.connected (h : v.Ok) (hw : v.work = none) (hr : v.connects = [req]) {status : ℤ}
    (hcl : status = 0 → v.base.closing = false) (a : ℕ) : (v.connected a status).Ok
      ∧ UvTcp.event v.uvTcp (.connected a req status) = some (v.connected a status).uvTcp := by
  have hc : v.tcp.connection = false := by
    rw [Bool.eq_false_iff]
    intro hc
    simp [h.connects.2 hc] at hr
  have hsh : v.tcp.shutdownReq = none := by
    rw [← Option.not_isSome_iff_eq_none]
    intro hs
    simp [h.shutdownReq hs] at hc
  have hrd : v.tcp.readable = false := by
    rw [Bool.eq_false_iff]
    intro hrd
    simp [(h.readable hrd).1] at hc
  have hwr : v.tcp.writable = false := by
    rw [Bool.eq_false_iff]
    intro hwr
    simp [(h.writable hwr).1] at hc
  have hst : v.tcp.started = false := by
    rw [Bool.eq_false_iff]
    intro hst
    simp [h.started hst] at hc
  have hpend := h.reqsPending
  have hwrites := h.writeReqsPending
  have hact := h.activecnt
  have hreads := h.reading
  have hflight := h.inFlight
  have hshut := h.shutdowns
  constructor
  · refine { h with
      reqsPending := ?_, writeReqsPending := ?_, activecnt := ?_, active := ?_, connects := ?_,
      shutdowns := ?_, inShutdown := ?_, shutdownReq := ?_, readable := ?_, writable := ?_,
      reading := ?_, started := ?_, inFlight := ?_, inRead := ?_, due := ?_, dueShutdown := ?_ }
    · simp [TcpView.connected, decreaseActive, count, hw, hr] at hpend ⊢
      omega
    · simpa [TcpView.connected, decreaseActive, hw, TcpWork.isWrite] using hwrites
    · simp [TcpView.connected, decreaseActive, count, hr] at hact ⊢
      omega
    · exact fun hcl => h.active_decreaseActive hcl
    · simp [TcpView.connected]
    · simpa [TcpView.connected, decreaseActive, hw, hsh, TcpWork.isShutdown] using hshut
    · simp [TcpView.connected, TcpWork.isShutdown]
    · simp [TcpView.connected, decreaseActive, hsh]
    · simpa [TcpView.connected, decreaseActive, hrd, hc] using fun hz => ⟨hz, hcl hz⟩
    · simpa [TcpView.connected, decreaseActive, hwr, hc, hsh] using fun hz => ⟨hz, hcl hz⟩
    · intro hon
      simp [(hreads hon).2.1] at hst
    · simp [TcpView.connected, decreaseActive, hst]
    · intro hin
      simp [(hflight hin).1] at hst
    · simp [TcpView.connected, TcpWork.isRead]
    · intro _ hz
      simp only [count, hr, List.length_singleton] at hpend
      have hz : v.tcp.reqsPending = 0 := hz
      omega
    · simp [TcpView.connected, decreaseActive, hsh]
  · by_cases hz : status = 0
    · simp [UvTcp.event, uvTcp, h.used, hr, TcpView.connected, decreaseActive, phase,
        UvTcp.connected, UvTcp.isClosing, UvPhase.isClosing, UvPhase.completed, hz, hcl hz]
    · rcases hbase : v.base.closing with _ | _ <;>
        simp [UvTcp.event, uvTcp, h.used, hr, TcpView.connected, decreaseActive, phase,
          UvTcp.connected, UvPhase.completed, hz, hbase]

/-- The callback of a write is made. -/
def written (v : TcpView) (a req : ℕ) : TcpView :=
  { v.decreaseActive with writes := v.writes.erase req, work := some (.write a) }

theorem Ok.written (h : v.Ok) (hw : v.work = none) (hr : req ∈ v.writes) (a : ℕ) (status : ℤ) :
    (v.written a req).Ok
      ∧ UvTcp.event v.uvTcp (.written a req status) = some (v.written a req).uvTcp := by
  have hlen := List.length_erase_of_mem hr
  have hpos := List.length_pos_of_mem hr
  have hpend := h.reqsPending
  have hwrites := h.writeReqsPending
  have hact := h.activecnt
  have hreads := h.reading
  have hflight := h.inFlight
  have hshut := h.shutdowns
  constructor
  · refine { h with
      reqsPending := ?_, writeReqsPending := ?_, activecnt := ?_, active := ?_, shutdowns := ?_,
      inShutdown := ?_, reading := ?_, inFlight := ?_, inRead := ?_, due := ?_, dueShutdown := ?_ }
    · simp [TcpView.written, decreaseActive, count, hw, hlen] at hpend ⊢
      omega
    · simp [TcpView.written, decreaseActive, hw, TcpWork.isWrite, hlen] at hwrites ⊢
      omega
    · simp [TcpView.written, decreaseActive, count, hlen] at hact ⊢
      omega
    · exact fun hcl => h.active_decreaseActive hcl
    · simpa [TcpView.written, decreaseActive, hw, TcpWork.isShutdown] using hshut
    · simp [TcpView.written, TcpWork.isShutdown]
    · simpa [TcpView.written, decreaseActive, hw, TcpWork.isRead] using hreads
    · simpa [TcpView.written, decreaseActive, hw, TcpWork.isRead] using hflight
    · simp [TcpView.written, TcpWork.isRead]
    · intro _ hz
      simp only [count] at hpend
      have hz : v.tcp.reqsPending = 0 := hz
      omega
    · intro _ _ hz
      have hz : v.tcp.writeReqsPending = 0 := hz
      omega
  · simp [UvTcp.event, uvTcp, h.used, hr, TcpView.written, decreaseActive, phase]

/-- The read request is being processed. -/
def readReq (v : TcpView) (w : TcpWork) : TcpView :=
  { v with tcp := { v.tcp with readPending := false }, inFlight := false, work := some w }

theorem Ok.readReq (h : v.Ok) (hw : v.work = none) (hin : v.inFlight = true) {w : TcpWork}
    (hkind : w.isWrite = false ∧ w.isShutdown = false)
    (hread : w.isRead = true ∨ v.tcp.reading = false) : (v.readReq w).Ok := by
  have hpend := h.reqsPending
  have hwrites := h.writeReqsPending
  have hshut := h.shutdowns
  have hreads := h.reading
  refine { h with
    reqsPending := ?_, writeReqsPending := ?_, shutdowns := ?_, inShutdown := ?_, reading := ?_,
    inFlight := ?_, inRead := ?_, readPending := ?_, dueShutdown := ?_ }
  · simpa [TcpView.readReq, count, hw, hin] using hpend
  · simpa [TcpView.readReq, hw, hkind.1] using hwrites
  · simpa [TcpView.readReq, hw, hkind.2] using hshut
  · simp [TcpView.readReq, hkind.2]
  · intro hon
    have hon : v.tcp.reading = true := hon
    obtain ⟨hcl, hst, -⟩ := hreads hon
    exact ⟨hcl, hst, .inr (by simpa [TcpView.readReq, hon] using hread)⟩
  · simp [TcpView.readReq]
  · exact fun _ => (h.inFlight hin).1
  · simp [TcpView.readReq]
  · intro hs _ hz
    exact h.dueShutdown hs (by simp [hw]) hz

/-- Reading ends. -/
def stopReading (v : TcpView) (readable : Bool) : TcpView :=
  decreaseActive { v with tcp := { v.tcp with
    reading := false, readable := v.tcp.readable && readable } }

theorem Ok.stopReading (h : v.Ok) (hon : v.tcp.reading = true) (readable : Bool) :
    (v.stopReading readable).Ok ∧ ∀ a nread, nread < 0 → readable = decide (nread ≠ uvEof) →
      UvTcp.event v.uvTcp (.readError a nread) = some (v.stopReading readable).uvTcp := by
  have hact := h.activecnt
  constructor
  · refine { h with activecnt := ?_, active := ?_, readable := ?_, reading := ?_ }
    · simp [TcpView.stopReading, decreaseActive, count, hon] at hact ⊢
      omega
    · intro hcl
      have hactive := h.active hcl
      have hcl : v.base.closing = false := hcl
      simp only [TcpView.stopReading, decreaseActive, hcl, Bool.false_or, Bool.and_eq_true,
        decide_eq_true_eq, hactive]
      omega
    · intro hr
      exact h.readable (Bool.and_elim_left hr)
    · simp [TcpView.stopReading, decreaseActive]
  · rintro a nread hneg rfl
    simp [UvTcp.event, uvTcp, h.used, hon, hneg, UvTcp.readError, TcpView.stopReading,
      decreaseActive, phase]

/-- The loop is in another callback of the same kind. -/
theorem Ok.inRead_work (h : v.Ok) {w w' : TcpWork} (hw : v.work = some w) (hr : w.isRead = true)
    (hr' : w'.isRead = true) : Ok { v with work := some w' } := by
  have hpend := h.reqsPending
  have hwrites := h.writeReqsPending
  have hshut := h.shutdowns
  have hreads := h.reading
  have hflight := h.inFlight
  have hin := h.inRead
  have hdue := h.dueShutdown
  have hkind : ∀ {w : TcpWork}, w.isRead = true → w.isWrite = false ∧ w.isShutdown = false := by
    intro w hw
    cases w <;> simp_all [TcpWork.isRead, TcpWork.isWrite, TcpWork.isShutdown]
  refine { h with
    reqsPending := ?_, writeReqsPending := ?_, shutdowns := ?_, inShutdown := ?_, reading := ?_,
    inFlight := ?_, inRead := ?_, dueShutdown := ?_ }
  · simpa [hw, count] using hpend
  · simpa [hw, hkind hr, hkind hr'] using hwrites
  · simpa [hw, hkind hr, hkind hr'] using hshut
  · simp [hkind hr']
  · simpa [hw, hr, hr'] using hreads
  · simpa [hw, hr, hr'] using hflight
  · simpa [hw, hr, hr'] using hin
  · simpa [hw, hkind hr, hkind hr'] using hdue

/-- The function that made the last callback is done. -/
def release (v : TcpView) : TcpView :=
  { v with
    base := { v.base with
      endgameQueued := v.base.endgameQueued
        || (v.base.closing && decide (v.tcp.reqsPending - 1 = 0)) }
    tcp := { v.tcp with reqsPending := v.tcp.reqsPending - 1 }
    work := none }

theorem Ok.release (h : v.Ok) {w : TcpWork} (hw : v.work = some w)
    (hkind : w.isWrite = false ∧ w.isShutdown = false)
    (hread : v.tcp.reading = true → v.inFlight = true) : v.release.Ok := by
  have hpend := h.reqsPending
  have hwrites := h.writeReqsPending
  have hshut := h.shutdowns
  refine { h with
    reqsPending := ?_, writeReqsPending := ?_, shutdowns := ?_, inShutdown := ?_, reading := ?_,
    inFlight := ?_, inRead := ?_, due := ?_, dueShutdown := ?_ }
  · simp [TcpView.release, count, hw] at hpend ⊢
    omega
  · simpa [TcpView.release, hw, hkind.1] using hwrites
  · simpa [TcpView.release, hw, hkind.2] using hshut
  · simp [TcpView.release]
  · intro hon
    obtain ⟨hcl, hst, -⟩ := h.reading hon
    exact ⟨hcl, hst, .inl (hread hon)⟩
  · exact fun hin => ⟨(h.inFlight hin).1, rfl⟩
  · simp [TcpView.release]
  · intro hcl hz
    have hcl : v.base.closing = true := hcl
    have hz : v.tcp.reqsPending - 1 = 0 := hz
    simp [TcpView.release, hcl, hz]
  · intro hs _ hz
    have hq := h.dueShutdown hs (by simp [hw, hkind.2]) hz
    simp [TcpView.release, hq]

/-- A read is posted, if the handle still reads. -/
theorem Ok.releaseRead (h : v.Ok) {w : TcpWork} (hw : v.work = some w) (hr : w.isRead = true)
    (failed : Bool) :
    (if v.tcp.reading then v.queueRead failed else v).release.Ok := by
  have hkind : w.isWrite = false ∧ w.isShutdown = false := by
    cases w <;> simp_all [TcpWork.isRead, TcpWork.isWrite, TcpWork.isShutdown]
  rcases hon : v.tcp.reading with _ | _
  · exact h.release hw hkind (by simp [hon])
  · obtain ⟨hcl, hst, -⟩ := h.reading hon
    have hidle : v.inFlight = false := by
      rw [Bool.eq_false_iff]
      intro hin
      simpa [hw, hr] using (h.inFlight hin).2
    have hpend := h.reqsPending
    have hwrites := h.writeReqsPending
    have hshut := h.shutdowns
    refine { h with
      reqsPending := ?_, writeReqsPending := ?_, shutdowns := ?_, inShutdown := ?_, reading := ?_,
      inFlight := ?_, inRead := ?_, readPending := ?_, due := ?_, dueShutdown := ?_ }
    · simp [TcpView.release, queueRead, count, hw, hidle] at hpend ⊢
      omega
    · simpa [TcpView.release, queueRead, hw, hkind.1] using hwrites
    · simpa [TcpView.release, queueRead, hw, hkind.2] using hshut
    · simp [TcpView.release, queueRead]
    · exact fun _ => ⟨hcl, hst, .inl rfl⟩
    · exact fun _ => ⟨hst, rfl⟩
    · simp [TcpView.release, queueRead]
    · simp [TcpView.release, queueRead]
    · intro hcl'
      exact absurd (hcl.symm.trans hcl') (by simp)
    · intro hs _ hz
      have hq := h.dueShutdown hs (by simp [hw, hkind.2]) hz
      simp [TcpView.release, queueRead, hq]

/-- A write is done behind its callback; the shutdown that waits for the last one is due. -/
def writeDone (v : TcpView) : TcpView :=
  { v with
    base := { v.base with
      endgameQueued := v.base.endgameQueued
        || (v.tcp.shutdownReq.isSome && decide (v.tcp.writeReqsPending - 1 = 0)) }
    tcp := { v.tcp with writeReqsPending := v.tcp.writeReqsPending - 1 } }

theorem Ok.releaseWrite (h : v.Ok) {a : ℕ} (hw : v.work = some (.write a)) :
    v.writeDone.release.Ok := by
  have hpend := h.reqsPending
  have hwrites := h.writeReqsPending
  have hshut := h.shutdowns
  refine { h with
    reqsPending := ?_, writeReqsPending := ?_, shutdowns := ?_, inShutdown := ?_, reading := ?_,
    inFlight := ?_, inRead := ?_, due := ?_, dueShutdown := ?_ }
  · simp [TcpView.release, writeDone, count, hw] at hpend ⊢
    omega
  · simp [TcpView.release, writeDone, hw, TcpWork.isWrite] at hwrites ⊢
    omega
  · simpa [TcpView.release, writeDone, hw, TcpWork.isShutdown] using hshut
  · simp [TcpView.release, writeDone]
  · simpa [TcpView.release, writeDone, hw, TcpWork.isRead] using h.reading
  · exact fun hin => ⟨(h.inFlight hin).1, rfl⟩
  · simp [TcpView.release, writeDone]
  · intro hcl hz
    have hcl : v.base.closing = true := hcl
    have hz : v.tcp.reqsPending - 1 = 0 := hz
    simp [TcpView.release, writeDone, hcl, hz]
  · intro hs _ hz
    have hs : v.tcp.shutdownReq.isSome = true := hs
    have hz : v.tcp.writeReqsPending - 1 = 0 := hz
    simp [TcpView.release, writeDone, hs, hz]

/-- The shutdown is done behind its callback. -/
def shutdownDone (v : TcpView) : TcpView := { v with tcp := { v.tcp with shutdownReq := none } }

theorem Ok.releaseShutdown (h : v.Ok) {a : ℕ} (hw : v.work = some (.shutdown a)) :
    v.shutdownDone.release.Ok := by
  have hpend := h.reqsPending
  have hwrites := h.writeReqsPending
  have hshut := h.shutdowns
  refine { h with
    reqsPending := ?_, writeReqsPending := ?_, shutdowns := ?_, inShutdown := ?_,
    shutdownReq := ?_, writable := ?_, reading := ?_, inFlight := ?_, inRead := ?_, due := ?_,
    dueShutdown := ?_ }
  · simp [TcpView.release, TcpView.shutdownDone, count, hw] at hpend ⊢
    omega
  · simpa [TcpView.release, TcpView.shutdownDone, hw, TcpWork.isWrite] using hwrites
  · simpa [TcpView.release, TcpView.shutdownDone, hw, TcpWork.isShutdown] using hshut
  · simp [TcpView.release, TcpView.shutdownDone]
  · simp [TcpView.release, TcpView.shutdownDone]
  · intro hon
    obtain ⟨hc, hcl, -⟩ := h.writable hon
    exact ⟨hc, hcl, rfl⟩
  · simpa [TcpView.release, TcpView.shutdownDone, hw, TcpWork.isRead] using h.reading
  · exact fun hin => ⟨(h.inFlight hin).1, rfl⟩
  · simp [TcpView.release, TcpView.shutdownDone]
  · intro hcl hz
    have hcl : v.base.closing = true := hcl
    have hz : v.tcp.reqsPending - 1 = 0 := hz
    simp [TcpView.release, TcpView.shutdownDone, hcl, hz]
  · simp [TcpView.release, TcpView.shutdownDone]

/-- The endgame was taken from the list. -/
def popped (v : TcpView) : TcpView := { v with base := { v.base with endgameQueued := false } }

/-- The callback of a shutdown request is made. -/
def shutDown (v : TcpView) (a : ℕ) : TcpView :=
  { v.popped.decreaseActive with shutdowns := [], work := some (.shutdown a) }

theorem Ok.shutDown (h : v.Ok) (hw : v.work = none) (hr : v.tcp.shutdownReq = some req)
    (hz : v.tcp.writeReqsPending = 0) (a : ℕ) (status : ℤ) : (v.shutDown a).Ok
      ∧ v.shutdowns = [req]
      ∧ UvTcp.event v.uvTcp (.shutdownDone a req status) = some (v.shutDown a).uvTcp := by
  have hpend := h.reqsPending
  have hwrites := h.writeReqsPending
  have hact := h.activecnt
  have hc : v.tcp.connection = true := h.shutdownReq (by simp [hr])
  have hone : v.shutdowns = [req] := by simpa [hw, hr] using h.shutdowns
  have hnil : v.writes = [] := by simpa [hz, hw] using hwrites.symm
  refine ⟨?_, hone, ?_⟩
  · refine { h with
      reqsPending := ?_, writeReqsPending := ?_, activecnt := ?_, active := ?_, shutdowns := ?_,
      inShutdown := ?_, reading := ?_, inFlight := ?_, inRead := ?_, due := ?_,
      dueShutdown := ?_ }
    · simp [TcpView.shutDown, popped, decreaseActive, count, hw, hone] at hpend ⊢
      omega
    · simpa [TcpView.shutDown, popped, decreaseActive, hw, TcpWork.isWrite] using hwrites
    · simp [TcpView.shutDown, popped, decreaseActive, count, hone] at hact ⊢
      omega
    · exact fun hcl => h.active_decreaseActive hcl
    · simp [TcpView.shutDown, TcpWork.isShutdown]
    · simp [TcpView.shutDown, popped, decreaseActive, hr]
    · simpa [TcpView.shutDown, popped, decreaseActive, hw, TcpWork.isRead] using h.reading
    · simpa [TcpView.shutDown, popped, decreaseActive, hw, TcpWork.isRead] using h.inFlight
    · simp [TcpView.shutDown, TcpWork.isRead]
    · intro _ hzero
      simp only [count, hone, List.length_singleton] at hpend
      have hzero : v.tcp.reqsPending = 0 := hzero
      omega
    · simp [TcpView.shutDown, TcpWork.isShutdown]
  · simp [UvTcp.event, uvTcp, h.used, TcpView.shutDown, popped, decreaseActive, phase,
      UvTcp.shutdownEnds, hc, hone, hnil]

/-- The endgame had nothing to do. -/
theorem Ok.popped (h : v.Ok) (hno : ¬ (v.base.closing = true ∧ v.tcp.reqsPending = 0))
    (hsh : v.tcp.shutdownReq.isSome = true → v.tcp.writeReqsPending ≠ 0) : v.popped.Ok :=
  { h with
    due := fun hcl hz => absurd ⟨hcl, hz⟩ hno
    dueShutdown := fun hs _ hz => absurd hz (hsh hs) }

/-- A handle that is closing and has no request pending ends. -/
theorem Ok.ends (h : v.Ok) (hcl : v.base.closing = true) (hz : v.tcp.reqsPending = 0) :
    v.connects = [] ∧ v.writes = [] ∧ v.shutdowns = [] ∧ v.inFlight = false ∧ v.work = none
      ∧ ∀ a cb, UvTcp.event v.uvTcp (.close a cb)
        = some (uvTcp { v with base := { v.base with closed := true } }) := by
  have hpend := h.reqsPending
  rw [hz, count] at hpend
  have hc : v.connects = [] := List.length_eq_zero_iff.1 (by omega)
  have hwr : v.writes = [] := List.length_eq_zero_iff.1 (by omega)
  have hs : v.shutdowns = [] := List.length_eq_zero_iff.1 (by omega)
  have hin : v.inFlight = false := by
    rcases hin : v.inFlight with _ | _
    · rfl
    · simp only [hin, Bool.toNat_true] at hpend
      omega
  have hw : v.work = none := by
    rcases hw : v.work with _ | w
    · rfl
    · simp only [hw, Option.isSome_some, Bool.toNat_true] at hpend
      omega
  refine ⟨hc, hwr, hs, hin, hw, fun a cb => ?_⟩
  simp [UvTcp.event, uvTcp, h.used, UvTcp.ends, UvTcp.idle, phase, hcl, hc, hwr, hs, UvTcp.finish]

end TcpView

end TestLibuv

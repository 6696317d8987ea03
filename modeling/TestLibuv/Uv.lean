import TestLibuv.Lib.CMem

/-!
# The libuv handles

What the vendored libuv keeps of a TCP handle and of a timer on Windows, as far as its callbacks
depend on it, and what the calls do to it. A call that the system can fail is given the result the
system would give.
-/

namespace TestLibuv

def uvEpipe : ℤ := -4047

def uvEnotconn : ℤ := -4053

def uvEisconn : ℤ := -4069

def uvEinval : ℤ := -4071

def uvEconnrefused : ℤ := -4078

def uvEcanceled : ℤ := -4081

def uvEalready : ℤ := -4084

def uvEof : ℤ := -4095

/-- What `errmsg_` was made from. -/
inductive ErrMsg
  | empty
  | uvError (errcode : ℤ)
  | text (s : String)
  deriving DecidableEq, Repr

/-- Where a handle is in its life: not initialised, in use, between `uv_close` and its endgame, or
behind it; and behind it with the endgame to come once more, which a request does that completes on
a closed handle. Nothing clears the flag `UV_HANDLE_CLOSING` of the last three but an
initialisation. -/
inductive UvPhase
  | blank
  | active
  | closing
  | closed
  | reclosing
  deriving DecidableEq, Repr

/-- `uv_is_closing`, and the flag `uv_close` looks at. -/
def UvPhase.isClosing : UvPhase → Bool
  | .blank | .active => false
  | .closing | .closed | .reclosing => true

theorem UvPhase.ne_active {p : UvPhase} (hc : p.isClosing = true) : p ≠ .active := by
  rintro rfl
  simp [isClosing] at hc

/-- In the handle queue of its loop. -/
def UvPhase.registered : UvPhase → Bool
  | .active | .closing => true
  | .blank | .closed | .reclosing => false

/-- `DECREASE_PENDING_REQ_COUNT` where no other request is pending: a handle that is closing gets
its endgame, and so does one that has had it. -/
def UvPhase.completed : UvPhase → UvPhase
  | .closed => .reclosing
  | p => p

@[simp] theorem UvPhase.isClosing_completed (p : UvPhase) :
    p.completed.isClosing = p.isClosing := by
  cases p <;> rfl

@[simp] theorem UvPhase.registered_completed (p : UvPhase) :
    p.completed.registered = p.registered := by
  cases p <;> rfl

@[simp] theorem UvPhase.completed_completed (p : UvPhase) :
    p.completed.completed = p.completed := by
  cases p <;> rfl

@[simp] theorem UvPhase.completed_eq_blank (p : UvPhase) :
    p.completed = .blank ↔ p = .blank := by
  cases p <;> simp [completed]

@[simp] theorem UvPhase.completed_eq_active (p : UvPhase) :
    p.completed = .active ↔ p = .active := by
  cases p <;> simp [completed]

/-- A `uv_tcp_t`: its phase, its flags and the requests that wait for their callbacks. `Write` is
what a pending `uv_write` refers to. -/
structure UvTcp (Write : Type*) where
  phase : UvPhase
  connection : Bool
  readable : Bool
  writable : Bool
  reading : Bool
  connectReq : Option ℕ
  shutdownReq : Option ℕ
  writeReqs : List Write
  deriving DecidableEq, Repr

namespace UvTcp

variable {Write : Type*}

/-- The handle before `uv_tcp_init`, with nothing of it set. -/
def blank : UvTcp Write where
  phase := .blank
  connection := false
  readable := false
  writable := false
  reading := false
  connectReq := none
  shutdownReq := none
  writeReqs := []

/-- `uv_tcp_init`. -/
def init : UvTcp Write := { (blank : UvTcp Write) with phase := .active }

/-- `uv_is_closing`. -/
def isClosing (h : UvTcp Write) : Bool := h.phase.isClosing

/-- Initialised, and neither closing nor closed. -/
def live (h : UvTcp Write) : Bool := h.phase = .active

/-- `uv_close`; on a handle that is closing or was closed it asserts and returns. -/
def close (h : UvTcp Write) : UvTcp Write :=
  if h.isClosing then h
  else { h with phase := .closing, reading := false, readable := false, writable := false }

/-- `uv_tcp_connect` for an attempt: the socket takes one connection. -/
def connect (h : UvTcp Write) (attempt : ℕ) (res : ℤ) : ℤ × UvTcp Write :=
  if h.connectReq.isSome then (uvEalready, h)
  else if h.connection then (uvEisconn, h)
  else if res = 0 then (0, { h with connectReq := some attempt })
  else (res, h)

/-- `uv_process_tcp_connect_req`; the endgame it may ask for comes behind the callback. -/
def connected (h : UvTcp Write) (status : ℤ) : UvTcp Write :=
  let h := { h with connectReq := none, phase := h.phase.completed }
  if status = 0 then { h with connection := true, readable := true, writable := true } else h

/-- `uv_accept` onto the handle. -/
def accept (h : UvTcp Write) : UvTcp Write :=
  { h with connection := true, readable := true, writable := true }

/-- `uv_read_start`. -/
def readStart (h : UvTcp Write) (res : ℤ) : ℤ × UvTcp Write :=
  if h.reading then (uvEalready, h)
  else if !h.readable then (uvEnotconn, h)
  else if res = 0 then (0, { h with reading := true })
  else (res, h)

/-- The read callback is about to be given an error, or the end of the stream. -/
def readError (h : UvTcp Write) (nread : ℤ) : UvTcp Write :=
  { h with reading := false, readable := h.readable && decide (nread ≠ uvEof) }

/-- `uv_write`. -/
def write (h : UvTcp Write) (w : Write) (res : ℤ) : ℤ × UvTcp Write :=
  if !h.writable then (uvEpipe, h)
  else if res = 0 then (0, { h with writeReqs := h.writeReqs ++ [w] })
  else (res, h)

/-- `uv_shutdown` with a request whose `data` names `req`. -/
def shutdown (h : UvTcp Write) (req : ℕ) : ℤ × UvTcp Write :=
  if !h.writable then (uvEpipe, h)
  else (0, { h with writable := false, shutdownReq := some req })

/-- `uv_tcp_endgame` calls the callback of the shutdown request. -/
def shutdownEnds (h : UvTcp Write) : Bool :=
  h.connection && h.shutdownReq.isSome && h.writeReqs.isEmpty

/-- No request is pending but the one for a read. -/
def idle (h : UvTcp Write) : Bool :=
  h.connectReq.isNone && h.shutdownReq.isNone && h.writeReqs.isEmpty

/-- `uv_tcp_endgame` closes the handle, and calls the close callback. -/
def ends (h : UvTcp Write) : Bool := h.phase = .closing && h.idle

/-- `uv_tcp_endgame` closes it once more, and calls the close callback once more. -/
def endsAgain (h : UvTcp Write) : Bool := h.phase = .reclosing && h.idle

/-- `uv__handle_close`, up to the callback. -/
def finish (h : UvTcp Write) : UvTcp Write := { h with phase := .closed }

variable (h : UvTcp Write)

@[simp] theorem isClosing_close : h.close.isClosing = true := by
  unfold close
  split_ifs with hc
  · exact hc
  · rfl

theorem phase_close (hopen : h.isClosing = false) : h.close.phase = .closing := by
  simp only [close, hopen, Bool.false_eq_true, if_false]

@[simp] theorem phase_close_ne_active : h.close.phase ≠ .active := by
  unfold close isClosing
  split_ifs with hc
  · exact UvPhase.ne_active hc
  · simp

@[simp] theorem connectReq_close : h.close.connectReq = h.connectReq := by
  unfold close
  split_ifs <;> rfl

@[simp] theorem connection_close : h.close.connection = h.connection := by
  unfold close
  split_ifs <;> rfl

@[simp] theorem writeReqs_close : h.close.writeReqs = h.writeReqs := by
  unfold close
  split_ifs <;> rfl

theorem reading_close (hr : h.isClosing = true → h.reading = false) : h.close.reading = false := by
  unfold close
  split_ifs with hc
  · exact hr hc
  · rfl

@[simp] theorem connectReq_connected (status : ℤ) : (h.connected status).connectReq = none := by
  unfold connected
  split_ifs <;> rfl

@[simp] theorem phase_connected (status : ℤ) :
    (h.connected status).phase = h.phase.completed := by
  unfold connected
  split_ifs <;> rfl

@[simp] theorem reading_connected (status : ℤ) : (h.connected status).reading = h.reading := by
  unfold connected
  split_ifs <;> rfl

@[simp] theorem isClosing_connected (status : ℤ) :
    (h.connected status).isClosing = h.isClosing := by
  unfold isClosing
  rw [phase_connected, UvPhase.isClosing_completed]

theorem connect_eq (attempt : ℕ) (res : ℤ) : ((h.connect attempt res).1 ≠ 0) ∨
    h.connectReq = none ∧ h.connection = false
      ∧ h.connect attempt res = (0, { h with connectReq := some attempt }) := by
  unfold connect
  split_ifs with hq hc hr
  · exact .inl (by simp [uvEalready])
  · exact .inl (by simp [uvEisconn])
  · exact .inr ⟨by simpa using hq, by simpa using hc, rfl⟩
  · exact .inl hr

theorem readStart_eq (res : ℤ) : ((h.readStart res).1 ≠ 0 ∧ (h.readStart res).2 = h)
    ∨ h.readStart res = (0, { h with reading := true }) := by
  unfold readStart
  split_ifs with hr hc hz
  · exact .inl ⟨by simp [uvEalready], rfl⟩
  · exact .inl ⟨by simp [uvEnotconn], rfl⟩
  · exact .inr rfl
  · exact .inl ⟨hz, rfl⟩

@[simp] theorem phase_readStart (res : ℤ) : (h.readStart res).2.phase = h.phase := by
  rcases h.readStart_eq res with ⟨-, heq⟩ | heq <;> rw [heq]

theorem write_eq (w : Write) (res : ℤ) : ((h.write w res).1 ≠ 0) ∨
    h.writable = true ∧ h.write w res = (0, { h with writeReqs := h.writeReqs ++ [w] }) := by
  unfold write
  split_ifs with hw hz
  · exact .inl (by simp [uvEpipe])
  · exact .inr ⟨by simpa using hw, rfl⟩
  · exact .inl hz

theorem write_eq_zero_iff (w : Write) (res : ℤ) :
    (h.write w res).1 = 0 ↔ h.writable = true ∧ res = 0 := by
  unfold write
  split_ifs with hw hz
  · simp_all [uvEpipe]
  · simp_all
  · simp_all

@[simp] theorem connectReq_readError (nread : ℤ) :
    (h.readError nread).connectReq = h.connectReq := rfl

theorem idle_eq_true : h.idle = true
    ↔ h.connectReq = none ∧ h.shutdownReq = none ∧ h.writeReqs = [] := by
  simp [idle, and_assoc]

theorem connectReq_of_idle (hi : h.idle = true) : h.connectReq = none :=
  (h.idle_eq_true.1 hi).1

theorem closing_of_ends (he : h.ends = true) : h.phase = .closing := by
  simp only [ends, Bool.and_eq_true, decide_eq_true_eq] at he
  exact he.1

theorem idle_of_ends (he : h.ends = true) : h.idle = true := by
  simp only [ends, Bool.and_eq_true] at he
  exact he.2

theorem isClosing_of_ends (he : h.ends = true) : h.isClosing = true := by
  rw [isClosing, h.closing_of_ends he]
  rfl

theorem writeReqs_of_ends (he : h.ends = true) : h.writeReqs = [] :=
  (h.idle_eq_true.1 (h.idle_of_ends he)).2.2

@[simp] theorem writeReqs_shutdown (req : ℕ) : (h.shutdown req).2.writeReqs = h.writeReqs := by
  unfold shutdown
  split_ifs <;> rfl

theorem shutdown_frame (req : ℕ) : (h.shutdown req).2.phase = h.phase
    ∧ (h.shutdown req).2.connectReq = h.connectReq
    ∧ (h.shutdown req).2.reading = h.reading := by
  unfold shutdown
  split_ifs <;> exact ⟨rfl, rfl, rfl⟩

end UvTcp

/-- A `uv_timer_t`: what it was started for while it is in the timer heap, and its timeout. -/
structure UvTimer where
  phase : UvPhase
  armed : Option ℕ
  timeout : UInt32
  deriving DecidableEq, Repr

namespace UvTimer

/-- The timer before `uv_timer_init`. -/
def blank : UvTimer := ⟨.blank, none, 0⟩

/-- `uv_timer_init`. -/
def init : UvTimer := ⟨.active, none, 0⟩

/-- `uv_timer_start`, which does not look at the phase. -/
def start (t : UvTimer) (attempt : ℕ) (timeout : UInt32) : UvTimer :=
  { t with armed := some attempt, timeout }

/-- `uv_timer_stop`. -/
def stop (t : UvTimer) : UvTimer := { t with armed := none }

/-- `uv_is_closing`. -/
def isClosing (t : UvTimer) : Bool := t.phase.isClosing

/-- `uv_close`; on a timer that is closing or was closed it asserts and returns. -/
def close (t : UvTimer) : UvTimer :=
  if t.isClosing then t else { t.stop with phase := .closing }

/-- The endgame of a closing timer. -/
def finish (t : UvTimer) : UvTimer := { t.stop with phase := .closed }

variable (t : UvTimer)

theorem armed_close {k : ℕ} (h : t.close.armed = some k) :
    t.isClosing = true ∧ t.armed = some k := by
  unfold close at h
  split_ifs at h with hc
  · exact ⟨hc, h⟩
  · simp [stop] at h

theorem armed_close_none (h : t.isClosing = true → t.armed = none) : t.close.armed = none := by
  unfold close
  split_ifs with hc
  · exact h hc
  · rfl

@[simp] theorem phase_close_ne_active : t.close.phase ≠ .active := by
  unfold close isClosing
  split_ifs with hc
  · exact UvPhase.ne_active hc
  · simp

theorem armed_stop_close : t.stop.close.armed = none := by
  unfold close
  split_ifs <;> rfl

end UvTimer

end TestLibuv

import Xmqtt.Core.Run
import Xmqtt.Service.Framing

/-!
# The websocket proxy

`websocketTcpProxy` of `websocket.go` dials the broker's own TCP port and starts two
goroutines: `ioCopyWS` writes the messages of the websocket to the connection, and
`ioWSCopy` sends what it reads from the connection as messages of the websocket.
Each reports its end on a channel without a buffer, from which the handler receives
once; then the handler closes both connections and returns.
-/

namespace Xmqtt.Service

open Xmqtt.Core Xmqtt.Go Xmqtt.Message

/-- Where a copy loop is: at `Receive` or `Read`, at `Write` or `Send` with its buffer, at
`chDone <- true`, or behind it. -/
inductive Copying where
  | taking
  | giving (buffer : Bytes)
  | reporting
  | exited
  deriving DecidableEq, Repr

/-- `taken` and `given` are history: what was received, and what has got through. -/
structure Copy where
  point : Copying
  count : ℕ
  taken : List Bytes
  given : List Bytes
  deriving DecidableEq, Repr

/-- What the two connections answer: `Receive` and `Read` with bytes or an error, `Write`
with the number of bytes written, and `Send`. -/
inductive Answer where
  | taken (buffer : Bytes) (err : Bool)
  | given (n : ℕ) (err : Bool)
  deriving DecidableEq, Repr

namespace Copy

def new : Copy := ⟨.taking, 0, [], []⟩

def took (this : Copy) (buffer : Bytes) : Copy :=
  { this with
    point := .giving buffer
    count := this.count + buffer.length
    taken := this.taken ++ [buffer] }

/-- From the websocket to the connection, which is `closed` or not. -/
def ioCopyWS (this : Copy) (closed : Bool) : Answer → Option Copy
  | .taken buffer err =>
      match this.point with
      | .taking => some (if err then { this with point := .reporting } else this.took buffer)
      | _ => none
  | .given i err =>
      match this.point with
      | .giving buffer =>
          -- a short write has an error, and so has one on a closed connection
          if i ≤ buffer.length ∧ (err ∨ i = buffer.length ∧ ¬closed) then
            some { this with
              point := if err ∨ i < 1 then .reporting else .taking
              given := this.given ++ [buffer.take i] }
          else none
      | _ => none

/-- From the connection to the websocket.  Bytes that come with an error are dropped. -/
def ioWSCopy (this : Copy) (wsClosed closed : Bool) : Answer → Option Copy
  | .taken buffer err =>
      match this.point with
      | .taking =>
          if buffer.length ≤ 2048 ∧ (closed → err) then
            some (if err ∨ buffer.length < 1 then { this with point := .reporting }
              else this.took buffer)
          else none
      | _ => none
  | .given _ err =>
      match this.point with
      | .giving buffer =>
          if wsClosed → err then
            some (if err then { this with point := .reporting }
              else { this with point := .taking, given := this.given ++ [buffer] })
          else none
      | _ => none

/-- `chDone <- true`, when the handler receives. -/
def report (this : Copy) : Option Copy :=
  match this.point with
  | .reporting => some { this with point := .exited }
  | _ => none

end Copy

/-- The handler: at `<-chDone`, and behind it before its deferred calls, which close the
websocket first. -/
inductive Handler where
  | waiting
  | closing
  | wsClosed
  | returned
  deriving DecidableEq, Repr

structure Proxy where
  handler : Handler
  up : Copy
  down : Copy
  deriving DecidableEq, Repr

inductive ProxyStep where
  | up (answer : Answer)
  | down (answer : Answer)
  | upReports
  | downReports
  | closeWs
  | closeClient
  deriving DecidableEq, Repr

namespace Proxy

/-- `net.Dial` has succeeded and the goroutines are started. -/
def start : Proxy := ⟨.waiting, .new, .new⟩

variable (this : Proxy)

def wsIsClosed : Bool := this.handler = .wsClosed || this.handler = .returned

def clientIsClosed : Bool := this.handler = .returned

def step : ProxyStep → Option Proxy
  | .up answer =>
      (this.up.ioCopyWS this.clientIsClosed answer).map fun up => { this with up := up }
  | .down answer =>
      (this.down.ioWSCopy this.wsIsClosed this.clientIsClosed answer).map fun down =>
        { this with down := down }
  | .upReports =>
      if this.handler = .waiting then
        this.up.report.map fun up => { this with up := up, handler := .closing }
      else none
  | .downReports =>
      if this.handler = .waiting then
        this.down.report.map fun down => { this with down := down, handler := .closing }
      else none
  | .closeWs =>
      if this.handler = .closing then some { this with handler := .wsClosed } else none
  | .closeClient =>
      if this.handler = .wsClosed then some { this with handler := .returned } else none

end Proxy

/-! ## What one answer does -/

section Cases

variable {this next : Copy} {closed : Bool} {answer : Answer}

/-- `ioCopyWS` ends where it cannot receive, and behind a short or an empty write. -/
theorem ioCopyWS_cases (hstep : this.ioCopyWS closed answer = some next) :
    (this.point = .taking ∧
        (next = { this with point := .reporting } ∨ ∃ buffer, next = this.took buffer)) ∨
      ∃ buffer, this.point = .giving buffer ∧
        ((∃ i, next =
            { this with point := .reporting, given := this.given ++ [buffer.take i] }) ∨
          buffer ≠ [] ∧
            next = { this with point := .taking, given := this.given ++ [buffer] }) := by
  cases answer with
  | taken buffer err =>
      simp only [Copy.ioCopyWS] at hstep
      split at hstep <;> cases hstep
      rename_i htaking
      refine .inl ⟨htaking, ?_⟩
      split_ifs
      · exact .inl rfl
      · exact .inr ⟨buffer, rfl⟩
  | given i err =>
      simp only [Copy.ioCopyWS] at hstep
      split at hstep
      · next buffer hgiving =>
          obtain ⟨⟨-, hwritten⟩, ⟨⟩⟩ := Option.ite_none_right_eq_some.mp hstep
          refine .inr ⟨buffer, hgiving, ?_⟩
          by_cases hends : err ∨ i < 1
          · exact .inl ⟨i, by simp only [if_pos hends]⟩
          · simp only [not_or] at hends
            obtain ⟨rfl, -⟩ := hwritten.resolve_left hends.1
            refine .inr ⟨List.ne_nil_of_length_pos (not_lt.mp hends.2), ?_⟩
            simp [hends]
      · cases hstep

/-- `ioWSCopy` ends where it cannot read, behind an empty read and where it cannot send. -/
theorem ioWSCopy_cases {wsClosed : Bool}
    (hstep : this.ioWSCopy wsClosed closed answer = some next) :
    (this.point = .taking ∧
        (next = { this with point := .reporting } ∨
          ∃ buffer, (1 ≤ buffer.length ∧ buffer.length ≤ 2048) ∧ next = this.took buffer)) ∨
      ∃ buffer, this.point = .giving buffer ∧
        (next = { this with point := .reporting } ∨
          next = { this with point := .taking, given := this.given ++ [buffer] }) := by
  cases answer with
  | taken buffer err =>
      simp only [Copy.ioWSCopy] at hstep
      split at hstep
      · next htaking =>
          obtain ⟨⟨hlong, -⟩, ⟨⟩⟩ := Option.ite_none_right_eq_some.mp hstep
          refine .inl ⟨htaking, ?_⟩
          split_ifs with hends
          · exact .inl rfl
          · exact .inr ⟨buffer, ⟨not_lt.mp (not_or.mp hends).2, hlong⟩, rfl⟩
      · cases hstep
  | given i err =>
      simp only [Copy.ioWSCopy] at hstep
      split at hstep
      · next buffer hgiving =>
          obtain ⟨-, ⟨⟩⟩ := Option.ite_none_right_eq_some.mp hstep
          refine .inr ⟨buffer, hgiving, ?_⟩
          split_ifs
          · exact .inl rfl
          · exact .inr rfl
      · cases hstep

end Cases

/-! ## What gets through -/

/-- What has got through a copy loop: all that was taken, up to the buffer in hand; behind
an error, a front part of it. -/
structure Through (this : Copy) : Prop where
  count : this.count = this.taken.flatten.length
  taking : this.point = .taking → this.given = this.taken ∧ ∀ buffer ∈ this.taken, buffer ≠ []
  giving : ∀ buffer, this.point = .giving buffer →
    this.taken = this.given ++ [buffer] ∧ ∀ earlier ∈ this.given, earlier ≠ []
  front : this.given.flatten <+: this.taken.flatten

namespace Through

variable {this next : Copy}

theorem new : Through .new := ⟨rfl, fun _ => ⟨rfl, nofun⟩, nofun, List.prefix_rfl⟩

/-- The loop ends and nothing more gets through. -/
theorem stop (hthrough : Through this) {point : Copying}
    (hpoint : point = .reporting ∨ point = .exited) : Through { this with point := point } := by
  refine ⟨hthrough.count, ?_, ?_, hthrough.front⟩
  · rintro rfl
    simp at hpoint
  · rintro buffer rfl
    simp at hpoint

theorem took (hthrough : Through this) (htaking : this.point = .taking) (buffer : Bytes) :
    Through (this.took buffer) := by
  obtain ⟨hgiven, hnonempty⟩ := hthrough.taking htaking
  refine ⟨?_, nofun, ?_, ?_⟩
  · simp [Copy.took, hthrough.count]
  · intro other hother
    cases hother
    exact ⟨by rw [Copy.took, hgiven], hgiven ▸ hnonempty⟩
  · simp only [Copy.took, hgiven, List.flatten_append]
    exact List.prefix_append _ _

/-- The whole buffer gets through. -/
theorem gave (hthrough : Through this) {buffer : Bytes} (hgiving : this.point = .giving buffer)
    (hnonempty : buffer ≠ []) :
    Through { this with point := .taking, given := this.given ++ [buffer] } := by
  obtain ⟨htaken, hearlier⟩ := hthrough.giving buffer hgiving
  refine ⟨hthrough.count, fun _ => ⟨htaken.symm, ?_⟩, nofun, ?_⟩
  · intro other hother
    rw [htaken] at hother
    rcases List.mem_append.mp hother with hbefore | hlast
    · exact hearlier other hbefore
    · exact List.mem_singleton.mp hlast ▸ hnonempty
  · rw [htaken]

/-- The front of the buffer gets through, and the loop ends. -/
theorem gaveFront (hthrough : Through this) {buffer : Bytes}
    (hgiving : this.point = .giving buffer) (i : ℕ) :
    Through { this with point := .reporting, given := this.given ++ [buffer.take i] } := by
  obtain ⟨htaken, -⟩ := hthrough.giving buffer hgiving
  refine ⟨hthrough.count, nofun, nofun, ?_⟩
  simp only [htaken, List.flatten_append, List.flatten_singleton]
  exact (List.prefix_append_right_inj _).mpr (List.take_prefix i buffer)

/-- What is being written was received. -/
theorem mem_taken (hthrough : Through this) {buffer : Bytes}
    (hgiving : this.point = .giving buffer) : buffer ∈ this.taken := by
  rw [(hthrough.giving buffer hgiving).1]
  exact List.mem_append_right _ (List.mem_singleton_self _)

theorem ioCopyWS (hthrough : Through this) {closed : Bool} {answer : Answer}
    (hstep : this.ioCopyWS closed answer = some next) : Through next := by
  rcases ioCopyWS_cases hstep with ⟨htaking, hnext⟩ | ⟨buffer, hgiving, hnext⟩
  · rcases hnext with rfl | ⟨buffer, rfl⟩
    · exact hthrough.stop (.inl rfl)
    · exact hthrough.took htaking buffer
  · rcases hnext with ⟨i, rfl⟩ | ⟨hnonempty, rfl⟩
    · exact hthrough.gaveFront hgiving i
    · exact hthrough.gave hgiving hnonempty

theorem ioWSCopy (hthrough : Through this) {wsClosed closed : Bool} {answer : Answer}
    (hstep : this.ioWSCopy wsClosed closed answer = some next)
    (hnonempty : ∀ buffer ∈ this.taken, 1 ≤ buffer.length) : Through next := by
  rcases ioWSCopy_cases hstep with ⟨htaking, hnext⟩ | ⟨buffer, hgiving, hnext⟩
  · rcases hnext with rfl | ⟨buffer, -, rfl⟩
    · exact hthrough.stop (.inl rfl)
    · exact hthrough.took htaking buffer
  · rcases hnext with rfl | rfl
    · exact hthrough.stop (.inl rfl)
    · exact hthrough.gave hgiving
        (List.ne_nil_of_length_pos (hnonempty buffer (hthrough.mem_taken hgiving)))

theorem report (hthrough : Through this) (hstep : this.report = some next) : Through next := by
  rw [Copy.report] at hstep
  split at hstep <;> cases hstep
  exact hthrough.stop (.inr rfl)

end Through

/-- The buffers of `ioWSCopy` are not empty and not longer than its array. -/
def Chunks (this : Copy) : Prop :=
  ∀ buffer ∈ this.taken ++ this.given, 1 ≤ buffer.length ∧ buffer.length ≤ 2048

theorem Chunks.ioWSCopy {this next : Copy} (hchunks : Chunks this) (hthrough : Through this)
    {wsClosed closed : Bool} {answer : Answer}
    (hstep : this.ioWSCopy wsClosed closed answer = some next) : Chunks next := by
  rcases ioWSCopy_cases hstep with ⟨-, hnext⟩ | ⟨buffer, hgiving, hnext⟩
  · rcases hnext with rfl | ⟨buffer, hlength, rfl⟩
    · exact hchunks
    · intro other hother
      simp only [Copy.took, List.mem_append, List.mem_singleton] at hother
      rcases hother with (htaken | rfl) | hgiven
      · exact hchunks other (List.mem_append_left _ htaken)
      · exact hlength
      · exact hchunks other (List.mem_append_right _ hgiven)
  · rcases hnext with rfl | rfl
    · exact hchunks
    · intro other hother
      simp only [← List.append_assoc, List.mem_append, List.mem_singleton] at hother
      rcases hother with hbefore | rfl
      · exact hchunks other (List.mem_append.mpr hbefore)
      · exact hchunks other (List.mem_append_left _ (hthrough.mem_taken hgiving))

theorem Chunks.report {this next : Copy} (hchunks : Chunks this)
    (hstep : this.report = some next) : Chunks next := by
  rw [Copy.report] at hstep
  split at hstep <;> cases hstep
  exact hchunks

/-! ## Who is left -/

/-- A copy loop that goes on: before, it has not reported, and it does not exit. -/
structure Copy.Busy (this next : Copy) : Prop where
  copying : this.point ≠ .reporting ∧ this.point ≠ .exited
  running : next.point ≠ .exited

theorem busy_ioCopyWS {this next : Copy} {closed : Bool} {answer : Answer}
    (hstep : this.ioCopyWS closed answer = some next) : this.Busy next := by
  rcases ioCopyWS_cases hstep with ⟨htaking, hnext⟩ | ⟨buffer, hgiving, hnext⟩
  · refine ⟨by simp [htaking], ?_⟩
    rcases hnext with rfl | ⟨buffer, rfl⟩ <;> simp [Copy.took]
  · refine ⟨by simp [hgiving], ?_⟩
    rcases hnext with ⟨i, rfl⟩ | ⟨-, rfl⟩ <;> simp

theorem busy_ioWSCopy {this next : Copy} {wsClosed closed : Bool} {answer : Answer}
    (hstep : this.ioWSCopy wsClosed closed answer = some next) : this.Busy next := by
  rcases ioWSCopy_cases hstep with ⟨htaking, hnext⟩ | ⟨buffer, hgiving, hnext⟩
  · refine ⟨by simp [htaking], ?_⟩
    rcases hnext with rfl | ⟨buffer, -, rfl⟩ <;> simp [Copy.took]
  · refine ⟨by simp [hgiving], ?_⟩
    rcases hnext with rfl | rfl <;> simp

theorem exited_of_report {this next : Copy} (hstep : this.report = some next) :
    next.point = .exited := by
  rw [Copy.report] at hstep
  split at hstep <;> cases hstep
  rfl

/-- Which goroutine the handler has received from. -/
def Proxy.Received (this : Proxy) : Prop :=
  match this.handler with
  | .waiting => this.up.point ≠ .exited ∧ this.down.point ≠ .exited
  | _ => this.up.point = .exited ∧ this.down.point ≠ .exited ∨
      this.down.point = .exited ∧ this.up.point ≠ .exited

/-- What holds in every interleaving. -/
structure Proxied (this : Proxy) : Prop where
  up : Through this.up
  down : Through this.down
  chunks : Chunks this.down
  received : this.Received

theorem proxied_start : Proxied .start where
  up := .new
  down := .new
  chunks := nofun
  received := ⟨nofun, nofun⟩

namespace Proxied

variable {this next : Proxy}

theorem received_up (hproxied : Proxied this) {up : Copy} (hbusy : this.up.Busy up) :
    Proxy.Received { this with up := up } := by
  have hreceived := hproxied.received
  unfold Proxy.Received at hreceived ⊢
  dsimp only
  split at hreceived
  · exact ⟨hbusy.running, hreceived.2⟩
  · rcases hreceived with ⟨hup, -⟩ | ⟨hdown, -⟩
    · exact absurd hup hbusy.copying.2
    · exact .inr ⟨hdown, hbusy.running⟩

theorem received_down (hproxied : Proxied this) {down : Copy} (hbusy : this.down.Busy down) :
    Proxy.Received { this with down := down } := by
  have hreceived := hproxied.received
  unfold Proxy.Received at hreceived ⊢
  dsimp only
  split at hreceived
  · exact ⟨hreceived.1, hbusy.running⟩
  · rcases hreceived with ⟨hup, -⟩ | ⟨hdown, -⟩
    · exact .inl ⟨hup, hbusy.running⟩
    · exact absurd hdown hbusy.copying.2

/-- The handler goes on behind `<-chDone`. -/
theorem move (hproxied : Proxied this) {handler : Handler} (hbefore : this.handler ≠ .waiting)
    (hafter : handler ≠ .waiting) : Proxied { this with handler := handler } := by
  refine { hproxied with received := ?_ }
  have hreceived := hproxied.received
  cases hhandler : this.handler with
  | waiting => exact absurd hhandler hbefore
  | closing | wsClosed | returned =>
      simp only [Proxy.Received, hhandler] at hreceived
      cases handler with
      | waiting => exact absurd rfl hafter
      | closing | wsClosed | returned => exact hreceived

theorem step {label : ProxyStep} (hproxied : Proxied this)
    (hstep : this.step label = some next) : Proxied next := by
  cases label with
  | up answer =>
      obtain ⟨up, hup, rfl⟩ := Option.map_eq_some_iff.mp hstep
      exact { hproxied with
        up := hproxied.up.ioCopyWS hup
        received := hproxied.received_up (busy_ioCopyWS hup) }
  | down answer =>
      obtain ⟨down, hdown, rfl⟩ := Option.map_eq_some_iff.mp hstep
      have hnonempty : ∀ buffer ∈ this.down.taken, 1 ≤ buffer.length :=
        fun buffer hmem => (hproxied.chunks buffer (List.mem_append_left _ hmem)).1
      exact { hproxied with
        down := hproxied.down.ioWSCopy hdown hnonempty
        chunks := hproxied.chunks.ioWSCopy hproxied.down hdown
        received := hproxied.received_down (busy_ioWSCopy hdown) }
  | upReports =>
      obtain ⟨hwaiting, hmap⟩ := Option.ite_none_right_eq_some.mp hstep
      obtain ⟨up, hup, rfl⟩ := Option.map_eq_some_iff.mp hmap
      have hreceived := hproxied.received
      simp only [Proxy.Received, hwaiting] at hreceived
      exact { hproxied with
        up := hproxied.up.report hup
        received := .inl ⟨exited_of_report hup, hreceived.2⟩ }
  | downReports =>
      obtain ⟨hwaiting, hmap⟩ := Option.ite_none_right_eq_some.mp hstep
      obtain ⟨down, hdown, rfl⟩ := Option.map_eq_some_iff.mp hmap
      have hreceived := hproxied.received
      simp only [Proxy.Received, hwaiting] at hreceived
      exact { hproxied with
        down := hproxied.down.report hdown
        chunks := hproxied.chunks.report hdown
        received := .inr ⟨exited_of_report hdown, hreceived.1⟩ }
  | closeWs =>
      obtain ⟨hclosing, ⟨⟩⟩ := Option.ite_none_right_eq_some.mp hstep
      exact hproxied.move (by rw [hclosing]; nofun) nofun
  | closeClient =>
      obtain ⟨hclosed, ⟨⟩⟩ := Option.ite_none_right_eq_some.mp hstep
      exact hproxied.move (by rw [hclosed]; nofun) nofun

end Proxied

theorem proxied_of_run {labels : List ProxyStep} {last : Proxy}
    (hrun : run Proxy.step .start labels = some last) : Proxied last :=
  run_keeps (fun _ _ _ hproxied hstep => hproxied.step hstep) proxied_start hrun

/-- One loop has exited; the other never does, and once it is at the channel it takes no
further step. -/
def Proxy.Leaves (this : Proxy) (exited left : Proxy → Copy) : Prop :=
  (exited this).point = .exited ∧ ∀ more next, run step this more = some next →
    (left next).point ≠ .exited ∧ ((left this).point = .reporting → left next = left this)

/-- Behind `<-chDone` a loop at the channel is not received from. -/
theorem blocked_step {this next : Proxy} {label : ProxyStep} (hpast : this.handler ≠ .waiting)
    (hstep : this.step label = some next) : next.handler ≠ .waiting ∧
      (this.up.point = .reporting → next.up = this.up) ∧
      (this.down.point = .reporting → next.down = this.down) := by
  cases label with
  | up answer =>
      obtain ⟨up, hup, rfl⟩ := Option.map_eq_some_iff.mp hstep
      exact ⟨hpast, fun hreporting => absurd hreporting (busy_ioCopyWS hup).copying.1,
        fun _ => rfl⟩
  | down answer =>
      obtain ⟨down, hdown, rfl⟩ := Option.map_eq_some_iff.mp hstep
      exact ⟨hpast, fun _ => rfl,
        fun hreporting => absurd hreporting (busy_ioWSCopy hdown).copying.1⟩
  | upReports | downReports =>
      obtain ⟨hwaiting, -⟩ := Option.ite_none_right_eq_some.mp hstep
      exact absurd hwaiting hpast
  | closeWs | closeClient =>
      obtain ⟨-, ⟨⟩⟩ := Option.ite_none_right_eq_some.mp hstep
      exact ⟨nofun, fun _ => rfl, fun _ => rfl⟩

theorem blocked_run {this last : Proxy} {labels : List ProxyStep}
    (hpast : this.handler ≠ .waiting) (hrun : run Proxy.step this labels = some last) :
    last.handler ≠ .waiting ∧ (this.up.point = .reporting → last.up = this.up) ∧
      (this.down.point = .reporting → last.down = this.down) := by
  induction labels generalizing this with
  | nil =>
      cases hrun
      exact ⟨hpast, fun _ => rfl, fun _ => rfl⟩
  | cons label labels ih =>
      obtain ⟨next, hnext, hrest⟩ := run_cons_eq_some_iff.mp hrun
      obtain ⟨hpast', hup, hdown⟩ := blocked_step hpast hnext
      obtain ⟨hlast, hup', hdown'⟩ := ih hpast' hrest
      refine ⟨hlast, fun hreporting => ?_, fun hreporting => ?_⟩
      · rw [hup hreporting] at hup'
        exact hup' hreporting
      · rw [hdown hreporting] at hdown'
        exact hdown' hreporting

theorem exited_step {this next : Proxy} {label : ProxyStep}
    (hstep : this.step label = some next) :
    (this.up.point = .exited → next.up.point = .exited) ∧
      (this.down.point = .exited → next.down.point = .exited) := by
  cases label with
  | up answer =>
      obtain ⟨up, hup, rfl⟩ := Option.map_eq_some_iff.mp hstep
      exact ⟨fun hexited => absurd hexited (busy_ioCopyWS hup).copying.2, id⟩
  | down answer =>
      obtain ⟨down, hdown, rfl⟩ := Option.map_eq_some_iff.mp hstep
      exact ⟨id, fun hexited => absurd hexited (busy_ioWSCopy hdown).copying.2⟩
  | upReports =>
      obtain ⟨-, hmap⟩ := Option.ite_none_right_eq_some.mp hstep
      obtain ⟨up, hup, rfl⟩ := Option.map_eq_some_iff.mp hmap
      exact ⟨fun _ => exited_of_report hup, id⟩
  | downReports =>
      obtain ⟨-, hmap⟩ := Option.ite_none_right_eq_some.mp hstep
      obtain ⟨down, hdown, rfl⟩ := Option.map_eq_some_iff.mp hmap
      exact ⟨id, fun _ => exited_of_report hdown⟩
  | closeWs | closeClient =>
      obtain ⟨-, ⟨⟩⟩ := Option.ite_none_right_eq_some.mp hstep
      exact ⟨id, id⟩

theorem exited_run {this last : Proxy} {labels : List ProxyStep}
    (hrun : run Proxy.step this labels = some last) :
    (this.up.point = .exited → last.up.point = .exited) ∧
      (this.down.point = .exited → last.down.point = .exited) := by
  induction labels generalizing this with
  | nil =>
      cases hrun
      exact ⟨id, id⟩
  | cons label labels ih =>
      obtain ⟨next, hnext, hrest⟩ := run_cons_eq_some_iff.mp hrun
      obtain ⟨hup, hdown⟩ := exited_step hnext
      obtain ⟨hup', hdown'⟩ := ih hrest
      exact ⟨hup' ∘ hup, hdown' ∘ hdown⟩

/-- In every interleaving, whichever loop ends first: once the handler has received, exactly
one of the two goroutines has exited, and the other never exits, whether the connections
are closed or not. -/
theorem websocket_leaves_goroutine {labels : List ProxyStep} {last : Proxy}
    (hrun : run Proxy.step .start labels = some last) (hreceived : last.handler ≠ .waiting) :
    last.Leaves Proxy.up Proxy.down ∨ last.Leaves Proxy.down Proxy.up := by
  have hnow := (proxied_of_run hrun).received
  have hlater : ∀ more next, run Proxy.step last more = some next →
      next.Received ∧ next.handler ≠ .waiting := fun more next hmore =>
    ⟨(proxied_of_run ((run_append hrun).trans hmore)).received, (blocked_run hreceived hmore).1⟩
  have hsides : ∀ {this : Proxy}, this.Received → this.handler ≠ .waiting →
      this.up.point = .exited ∧ this.down.point ≠ .exited ∨
        this.down.point = .exited ∧ this.up.point ≠ .exited := by
    intro this hthis hpast
    unfold Proxy.Received at hthis
    split at hthis
    · next hwaiting => exact absurd hwaiting hpast
    · exact hthis
  rcases hsides hnow hreceived with ⟨hup, -⟩ | ⟨hdown, -⟩
  · refine .inl ⟨hup, fun more next hmore => ⟨?_, (blocked_run hreceived hmore).2.2⟩⟩
    obtain ⟨hthen, hpast⟩ := hlater more next hmore
    rcases hsides hthen hpast with ⟨-, hrunning⟩ | ⟨-, hnot⟩
    · exact hrunning
    · exact absurd ((exited_run hmore).1 hup) hnot
  · refine .inr ⟨hdown, fun more next hmore => ⟨?_, (blocked_run hreceived hmore).2.1⟩⟩
    obtain ⟨hthen, hpast⟩ := hlater more next hmore
    rcases hsides hthen hpast with ⟨-, hnot⟩ | ⟨-, hrunning⟩
    · exact absurd ((exited_run hmore).2 hdown) hnot
    · exact hrunning

/-- The client closes the websocket; then the read of the connection fails. -/
def clientLeaves : List ProxyStep :=
  [.up (.taken [] true), .upReports, .closeWs, .closeClient, .down (.taken [] true)]

theorem websocket_leaves_goroutine_closed :
    ∃ last, run Proxy.step .start clientLeaves = some last ∧ last.handler = .returned ∧
      last.down.point = .reporting ∧
      (last.Leaves Proxy.up Proxy.down ∨ last.Leaves Proxy.down Proxy.up) := by
  have hends : (run Proxy.step .start clientLeaves).map
      (fun last => (last.handler, last.down.point)) = some (.returned, .reporting) := by
    decide +kernel
  obtain ⟨last, hrun, hlast⟩ := Option.map_eq_some_iff.mp hends
  obtain ⟨hreturned, hreporting⟩ := Prod.mk.inj hlast
  exact ⟨last, hrun, hreturned, hreporting,
    websocket_leaves_goroutine hrun (by rw [hreturned]; nofun)⟩

end Xmqtt.Service

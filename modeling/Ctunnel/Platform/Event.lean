import Ctunnel.Net.Relay

/-!
# Event backends (`src/platform/event_epoll.c`, `event_poll.c`, `event_kqueue.c`)

What the kernel reports for one registered descriptor, and the `CT_EV_*` mask
`event_loop_wait` makes of it. Every backend turns hang-ups and errors into
READ, whether or not READ was registered.
-/

namespace Ctunnel

/-- The filter a `kevent` belongs to. -/
inductive KqueueFilter
  | read
  | write
  deriving DecidableEq, Repr

/-- One ready descriptor, as the kernel describes it. -/
inductive Report
  /-- `EPOLLIN`, `EPOLLOUT`, `EPOLLRDHUP`, `EPOLLHUP`, `EPOLLERR`. -/
  | epoll (input output rdhup hup err : Bool)
  /-- `POLLIN`, `POLLOUT`, `POLLHUP`, `POLLERR`. -/
  | poll (input output hup err : Bool)
  /-- `EVFILT_READ` or `EVFILT_WRITE`, with `EV_EOF` and `EV_ERROR`. -/
  | kqueue (filter : KqueueFilter) (eof error : Bool)
  deriving DecidableEq, Repr

/-- The mask `event_loop_wait` reports. -/
def Report.mask : Report → EvMask
  | .epoll input output rdhup hup err =>
      ⟨input || rdhup || hup || err, output, err, rdhup || hup⟩
  | .poll input output hup err => ⟨input || hup || err, output, err, hup⟩
  | .kqueue filter eof error =>
      ⟨filter == .read || eof || error, filter == .write, error, eof⟩

/-- The kernel reports readiness only as registered, hang-ups and errors always
(`EPOLLRDHUP` is always registered). -/
def Report.possible (interest : EvMask) : Report → Bool
  | .epoll input output .. => (!input || interest.read) && (!output || interest.write)
  | .poll input output .. => (!input || interest.read) && (!output || interest.write)
  | .kqueue .read .. => interest.read
  | .kqueue .write .. => interest.write

/-- READ that was not registered comes from a hang-up or an error. -/
theorem Report.unrequested_read {interest : EvMask} {report : Report}
    (hpossible : report.possible interest = true) (hread : report.mask.read = true)
    (hinterest : interest.read = false) :
    report.mask.hangup = true ∨ report.mask.error = true := by
  cases report with
  | epoll input output rdhup hup err =>
      simp only [Report.possible, Report.mask, hinterest] at *
      cases input <;> cases rdhup <;> cases hup <;> cases err <;> simp_all
  | poll input output hup err =>
      simp only [Report.possible, Report.mask, hinterest] at *
      cases input <;> cases hup <;> cases err <;> simp_all
  | kqueue filter eof error =>
      cases filter <;> cases eof <;> cases error <;>
        simp_all [Report.possible, Report.mask]

end Ctunnel

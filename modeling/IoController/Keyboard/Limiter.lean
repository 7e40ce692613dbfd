import IoController.Time

/-!
# Keyboard — Limiter

Cores that pass keys on over a slow serial link of their own lose codes that come too close
together.  A code goes out at once if the link is free; otherwise it waits in a bounded queue,
from which one code is released per interval.
-/

namespace IoController.Keyboard

/-- The least gap between two codes on a keyboard link. -/
def keyInterval : Duration := .milliseconds 10

/-- The least gap between two bytes on the Atari ST's link. -/
def ikbdInterval : Duration := .milliseconds 2

/-- The codes that wait in `queue`, and when the next one may go. -/
structure Limiter where
  interval : Duration
  queue : List UInt16 := []
  /-- Until when the link is busy with the last code. -/
  busyUntil : Deadline := none
  /-- How many codes were dropped, modulo 2^32. -/
  dropped : UInt32 := 0

namespace Limiter

/-- How many codes can wait. -/
def capacity : Nat := 16

/-- Forgets the codes that wait in `queue`, and lets the next one go at once. -/
def clear (l : Limiter) : Limiter := { l with queue := [], busyUntil := none }

/-- Has `code` wait.  If the queue is full it is dropped and the answer is `false`. -/
def enqueue (l : Limiter) (code : UInt16) : Bool × Limiter :=
  if l.queue.length < capacity then (true, { l with queue := l.queue ++ [code] })
  else (false, { l with dropped := l.dropped + 1 })

/-- Offers `code`.  It is returned if it may go out now, and waits otherwise. -/
def submit (l : Limiter) (code : UInt16) (now : Instant) : Option UInt16 × Limiter :=
  if l.queue.isEmpty && l.busyUntil.reached now then
    (some code, { l with busyUntil := some (now + l.interval) })
  else (none, (l.enqueue code).2)

/-- Releases the next code that waits, if the link is free by `busyUntil`. -/
def poll (l : Limiter) (now : Instant) : Option UInt16 × Limiter :=
  if l.busyUntil.reached now then
    match l.queue with
    | [] => (none, { l with busyUntil := none })
    | code :: rest =>
      (some code, { l with queue := rest, busyUntil := some (now + l.interval) })
  else (none, l)

end Limiter

end IoController.Keyboard

import Mathlib.Data.List.Infix

/-!
# First-In First-Out Channels

A channel is what was put into it, what has come out, and what is inside. It is
sound if nothing is lost, repeated or reordered. Two channels make one when what
comes out of the first is what is put into the second.

## Contents

- `Channel`, `Channel.Sound`, `Channel.Step`: a channel and what a step may do
- `Sound.step`: a step keeps a channel sound
- `Channel.series`, `Sound.series`: a channel behind another one
-/

namespace Epoller.Foundation

universe u

/-- A channel, seen from outside. -/
structure Channel (α : Type u) where
  /-- What was put in -/
  accepted : List α
  /-- What has not come out -/
  inside : List α
  /-- What has come out -/
  delivered : List α

namespace Channel

variable {α : Type u} {c c' front back : Channel α} {i m o : List α}

/-- Nothing is lost, repeated or reordered. -/
def Sound (c : Channel α) : Prop := c.delivered ++ c.inside = c.accepted

/-- `i` goes in and `o` comes out. -/
structure Step (c : Channel α) (i o : List α) (c' : Channel α) : Prop where
  accepted : c'.accepted = c.accepted ++ i
  delivered : c'.delivered = c.delivered ++ o
  /-- What comes out is the front of what is inside and what goes in. -/
  inside : o ++ c'.inside = c.inside ++ i

/-! ## Steps -/

theorem Sound.step (h : c.Sound) (hstep : c.Step i o c') : c'.Sound := by
  rw [Sound, hstep.delivered, hstep.accepted, List.append_assoc, hstep.inside,
    ← List.append_assoc, h]

/-! ## Series -/

/-- `back` behind `front` -/
def series (front back : Channel α) : Channel α where
  accepted := front.accepted
  inside := back.inside ++ front.inside
  delivered := back.delivered

theorem Sound.series (hfront : front.Sound) (hback : back.Sound)
    (hjoin : back.accepted = front.delivered) : (front.series back).Sound := by
  have hback' : back.delivered ++ back.inside = front.delivered := hback.trans hjoin
  rw [Sound, Channel.series, ← List.append_assoc, hback']
  exact hfront

end Channel

end Epoller.Foundation

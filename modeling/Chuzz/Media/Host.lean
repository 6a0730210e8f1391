import Chuzz.Media.Reports

/-! All tracks of a page. A pass goes over every track that the host keeps, and so does the one
inside a call that the page makes for a single track. What a page sees of one track depends on
that track alone. -/
namespace Chuzz.Media
open Library.Transition

inductive Action
  /-- A track is constructed from a reply whose status the pass of that call remembered. -/
  | opened (handle : Nat) (enabled muted : Bool)
  | change (handle : Nat) (made : Change)
  | updates (passes : Nat → Pass)
  | ask (handle : Nat) (accepted : Bool) (reply : Moment) (passes : Nat → Pass)
  | setEnabled (handle : Nat) (value : Bool) (passes : Nat → Pass)
  | stop (handle : Nat) (passes : Nat → Pass)
  | deliver (handle : Nat)

/-- What an action is to one track. -/
def Action.seenBy (track : Nat) : Action → Option Label
  | .opened _ _ _ => none
  | .change handle made => if handle = track then some (.change made) else none
  | .updates passes => some (.updates (passes track))
  | .ask handle accepted reply passes =>
    some (if handle = track then .ask accepted reply (passes track) else .updates (passes track))
  | .setEnabled handle value passes =>
    some (if handle = track then .setEnabled value (passes track) else .updates (passes track))
  | .stop handle passes => some (if handle = track then .stop else .updates (passes track))
  | .deliver handle => if handle = track then some .deliver else none

/-- The tracks of the page by their handles. -/
abbrev Host := Nat → Option Capture

namespace Host

/-- A handle is allocated once. -/
def opened (host : Host) (handle : Nat) (capture : Capture) : Host :=
  fun track => if track = handle ∧ host track = none then some capture else host track

def perform (host : Host) (action : Action) : Host :=
  match action with
  | .opened handle enabled muted => host.opened handle (.opened enabled muted)
  | _ => fun track => (host track).map fun capture =>
    ((action.seenBy track).map capture.perform).getD capture

/-- The passes and the replies of the action are timely for the track. -/
def Timely (track : Nat) (host : Host) (action : Action) : Prop :=
  ∀ capture ∈ host track, ∀ label ∈ action.seenBy track, capture.Timely label

abbrev Started (host : Host) : Prop := host = fun _ => none

/-- The runs of a page that are timely for one of its tracks. -/
abbrev Reached (track : Nat) (host : Host) : Prop :=
  Reachable Started
    (restrict (fun before action after => perform before action = after) (Timely track)) host

theorem perform_consistent {host : Host} {track : Nat} (action : Action)
    (timely : host.Timely track action)
    (consistent : ∀ capture ∈ host track, capture.Consistent) :
    ∀ capture ∈ host.perform action track, capture.Consistent := by
  have others : ∀ capture ∈ (host track).map (fun capture =>
      ((action.seenBy track).map capture.perform).getD capture), capture.Consistent := by
    intro after member
    obtain ⟨capture, has, rfl⟩ := Option.map_eq_some_iff.mp member
    cases seen : action.seenBy track with
    | none => exact consistent capture has
    | some label =>
      exact Capture.perform_consistent (consistent capture has) label
        (timely capture has label seen)
  cases action with
  | opened handle enabled muted =>
    intro after member
    simp only [perform, opened] at member
    split at member
    · cases member
      exact Capture.opened_consistent enabled muted
    · exact consistent after member
  | change | updates | ask | setEnabled | stop | deliver => exact others

theorem reached_consistent {host : Host} {track : Nat} (run : Reached track host) :
    ∀ capture ∈ host track, capture.Consistent := by
  apply run.invariant
  · intro host start capture member
    rw [start] at member
    cases member
  · rintro host action _ _ consistent ⟨rfl, timely⟩
    exact perform_consistent action timely consistent

end Host
end Chuzz.Media

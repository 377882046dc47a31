import Mathlib.Data.List.Nodup

/-!
# Challenges

A verifier draws a challenge in every round and may accept a token in it. A token is made for one
challenge. Where every accepted token answers the challenge of its own round, and no challenge is
drawn twice, no token is accepted twice (`acceptedTokens_nodup`).
-/

set_option autoImplicit false

namespace Ssgx.Support

universe u v

/-- One round: the challenge, and the token that was accepted. -/
structure Round (C : Type u) (T : Type v) where
  challenge : C
  accepted : Option T

variable {C : Type u} {T : Type v}

/-- The challenges of the rounds. -/
def drawnChallenges (rounds : List (Round C T)) : List C := rounds.map Round.challenge

/-- The tokens accepted in the rounds. -/
def acceptedTokens (rounds : List (Round C T)) : List T := rounds.filterMap Round.accepted

/-- What was accepted in the round was made for its challenge. -/
def Round.Answered (challengeOf : T → C) (round : Round C T) : Prop :=
  ∀ token, round.accepted = some token → challengeOf token = round.challenge

/-- An accepted token was made for one of the drawn challenges. -/
theorem challengeOf_mem_drawn {challengeOf : T → C} {rounds : List (Round C T)}
    (h : ∀ round ∈ rounds, round.Answered challengeOf) {token : T}
    (htoken : token ∈ acceptedTokens rounds) : challengeOf token ∈ drawnChallenges rounds := by
  obtain ⟨round, hround, haccepted⟩ := List.mem_filterMap.1 htoken
  rw [h round hround token haccepted]
  exact List.mem_map_of_mem hround

/-- **No token is accepted twice.** -/
theorem acceptedTokens_nodup {challengeOf : T → C} {rounds : List (Round C T)}
    (h : ∀ round ∈ rounds, round.Answered challengeOf)
    (hdrawn : (drawnChallenges rounds).Nodup) : (acceptedTokens rounds).Nodup := by
  induction rounds with
  | nil => exact List.nodup_nil
  | cons round rounds ih =>
      have hrest : ∀ round ∈ rounds, round.Answered challengeOf :=
        fun other hother => h other (List.mem_cons_of_mem _ hother)
      obtain ⟨hnew, hnodup⟩ := List.nodup_cons.1 hdrawn
      simp only [acceptedTokens]
      cases haccepted : round.accepted with
      | none =>
          rw [List.filterMap_cons_none haccepted]
          exact ih hrest hnodup
      | some token =>
          rw [List.filterMap_cons_some haccepted]
          refine List.nodup_cons.2 ⟨fun hmem => hnew ?_, ih hrest hnodup⟩
          -- the same token in an earlier round would have been made for an earlier challenge
          rw [← h round List.mem_cons_self token haccepted]
          exact challengeOf_mem_drawn hrest hmem

end Ssgx.Support

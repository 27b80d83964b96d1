import Mathlib
import Horchestra.Foundations.Text

/-!
# Renewing the controller's own credential

The loop waits two thirds of the life its certificate has left, and no less than a minute, before it
tries to renew it.  After a failure it waits a minute and then starts over, with that wait in front.

`retried_on_floor_iff` says what this makes of a failed renewal, for every certificate and every
pattern of failures: the next attempt comes two waits later, so a failure is followed by an attempt
within a minute of validity only where the certificate has no more than that minute left.
-/

namespace Horchestra.Vault.SelfRenew

open Foundations.Text

/-- `Time.Sub` saturates. -/
def timeSub (t u : Int) : Int := max (-2 ^ 63) (min (2 ^ 63 - 1) (t - u))

def renewNumer : Int := 2
def renewDenom : Int := 3
def checkFloor : Int := 60 * 10 ^ 9

def renewIn (notAfter now : Int) : Int :=
  max checkFloor ((wrap64 (timeSub notAfter now * renewNumer)).tdiv renewDenom)

/-- What a renewal came to: how long it took, and the end of the new certificate if it succeeded. -/
structure Outcome where
  took : Nat
  renewed : Option Int

/-- An attempt to renew the certificate that ends at `notAfter`. -/
structure Attempt where
  began : Int
  ended : Int
  notAfter : Int
  failed : Bool

/-- The attempts of the loop, which reads the certificate anew each time around. -/
def selfRenew (now notAfter : Int) : List Outcome → List Attempt
  | [] => []
  | outcome :: rest =>
    let began := now + renewIn notAfter now
    let ended := began + outcome.took
    ⟨began, ended, notAfter, outcome.renewed.isNone⟩ ::
      match outcome.renewed with
      | none => selfRenew (ended + checkFloor) notAfter rest
      | some renewed => selfRenew ended renewed rest

/-- Two consecutive attempts, the first of which failed. -/
def Retry (attempts : List Attempt) (a b : Attempt) : Prop :=
  [a, b] <:+: attempts ∧ a.failed = true

variable {now notAfter : Int} {outcomes : List Outcome} {a b : Attempt}

theorem began_of_head (head : (selfRenew now notAfter outcomes).head? = some b) :
    b.began = now + renewIn notAfter now := by
  cases outcomes with
  | nil => cases head
  | cons outcome rest =>
    cases head
    rfl

/-- A retry waits on the floor, and then again like any other attempt. -/
theorem began_of_retry (retry : Retry (selfRenew now notAfter outcomes) a b) :
    b.began = a.ended + checkFloor + renewIn a.notAfter (a.ended + checkFloor) := by
  obtain ⟨consecutive, failed⟩ := retry
  induction outcomes generalizing now notAfter with
  | nil => simp [selfRenew] at consecutive
  | cons outcome rest ih =>
    rw [selfRenew, List.infix_cons_iff] at consecutive
    rcases consecutive with first | later
    · obtain ⟨rfl, next⟩ := List.cons_prefix_cons.1 first
      cases renewed : outcome.renewed with
      | some _ => simp [renewed] at failed
      | none =>
        rw [renewed] at next
        exact began_of_head (List.singleton_prefix_iff_head?_eq_some.1 next)
    · cases renewed : outcome.renewed with
      | none =>
        rw [renewed] at later
        exact ih later
      | some _ =>
        rw [renewed] at later
        exact ih later

theorem checkFloor_le_renewIn : checkFloor ≤ renewIn notAfter now := le_max_left ..

theorem retried_on_floor_iff (now notAfter : Int) (outcomes : List Outcome) :
    let attempts := selfRenew now notAfter outcomes
    (∀ a b, Retry attempts a b →
      min b.began a.notAfter - a.began ≤ checkFloor + (a.ended - a.began)) ↔
    ∀ a b, Retry attempts a b → a.notAfter ≤ a.ended + checkFloor := by
  refine forall₂_congr fun a b => forall_congr' fun retry => ?_
  have waits := began_of_retry retry
  have floor := @checkFloor_le_renewIn (a.ended + checkFloor) a.notAfter
  have positive : 0 < checkFloor := by decide
  omega

/-- Of a certificate with ninety minutes left the renewal fails after sixty; it is tried again twenty
minutes later. -/
theorem retry_waits_again :
    ∃ a b, Retry (selfRenew 0 (90 * checkFloor) [⟨0, none⟩, ⟨0, none⟩]) a b ∧
      b.began - a.ended = 1220 * 10 ^ 9 ∧ b.began < a.notAfter :=
  ⟨_, _, ⟨List.infix_rfl, rfl⟩, by decide⟩

end Horchestra.Vault.SelfRenew

import LongPollTunnel.Proofs.Cutting

/-! # What a wait comes to

A wait takes reads off the front of the source for as long as nothing can be said. It goes on only
while the source has nothing to give and the reader is spent: nothing complete is buffered and
nothing is to be reported. Main statement: a wait that goes on leaves a spent reader of a source
that is empty and has not ended, and a spent reader waits unless its source has ended.
-/

namespace LongPollTunnel

open Framing

namespace Reader

/-- Nothing complete is buffered, nothing is to be reported, and no fault is to be found. -/
structure Spent (r : Reader) : Prop where
  complete_eq : r.complete = 0
  pending_eq : r.pending = none
  wholePart_eq : wholePart r.buffer = []
  fault_eq : fault? r.buffer = none

namespace Spent

variable {r : Reader}

theorem sound (hr : r.Spent) : r.Sound :=
  sound_of_complete_eq_zero hr.complete_eq

end Spent

variable {r next : Reader}

/-! ## Looking at the buffer again -/

/-- A second look at the same buffer finds nothing new. -/
theorem scan_scan (hr : r.Sound) : r.scan.scan = r.scan := by
  have hcomplete := complete_scan hr.scan
  have hpending := pending_scan hr.scan
  rw [buffer_scan] at hcomplete hpending
  rw [← complete_scan hr] at hcomplete
  rw [pending_scan hr, Option.or_assoc, Option.or_self, ← pending_scan hr] at hpending
  change { r.scan with complete := r.scan.scan.complete, pending := r.scan.scan.pending } = r.scan
  rw [hcomplete, hpending]

theorem check_scan (hr : r.Sound) : r.scan.check = r.check := by
  unfold check
  rw [scan_scan hr]

theorem spent_scan (hr : r.Sound) (hnews : r.scan.hasNews = false) : r.scan.Spent := by
  rw [hasNews, Bool.or_eq_false_iff, decide_eq_false_iff_not, Nat.not_lt, Nat.le_zero,
    Option.isSome_eq_false_iff, Option.isNone_iff_eq_none] at hnews
  obtain ⟨hcomplete, hpending⟩ := hnews
  have hwhole : wholePart r.buffer = [] := by
    rw [complete_scan hr] at hcomplete
    exact List.eq_nil_of_length_eq_zero hcomplete
  refine ⟨hcomplete, hpending, hwhole, ?_⟩
  rw [pending_scan hr, openPart_eq_self hwhole, Option.or_eq_none_iff, Option.map_eq_none_iff]
    at hpending
  exact hpending.2

theorem Spent.scan_eq (hr : r.Spent) : r.scan = r := by
  have hcomplete := complete_scan hr.sound
  have hpending := pending_scan hr.sound
  rw [hr.wholePart_eq, List.length_nil, ← hr.complete_eq] at hcomplete
  rw [openPart_eq_self hr.wholePart_eq, hr.fault_eq, Option.map_none, Option.or_none] at hpending
  change { r with complete := r.scan.complete, pending := r.scan.pending } = r
  rw [hcomplete, hpending]

theorem Spent.check_eq (hr : r.Spent) :
    r.check = (if r.ended then .failed r.endFailure else .waiting, r) := by
  unfold check
  rw [hr.scan_eq]
  dsimp only
  rw [if_neg (by rw [hr.complete_eq]; exact Nat.lt_irrefl 0), hr.pending_eq]
  cases hended : r.ended <;> simp

/-- Whoever has news says something. -/
theorem check_of_hasNews (hnews : r.scan.hasNews = true) :
    r.check = (.done (), r.scan) ∧ 0 < r.scan.complete ∨
      ∃ failure, r.scan.complete = 0 ∧ r.scan.pending = some failure ∧
        r.check = (.failed failure, { r.scan with pending := none }) := by
  unfold check
  dsimp only
  split
  next hcomplete => exact Or.inl ⟨rfl, hcomplete⟩
  next hcomplete =>
    have hzero : r.scan.complete = 0 := Nat.eq_zero_of_not_pos hcomplete
    rw [hasNews, hzero, decide_eq_false (Nat.lt_irrefl 0), Bool.false_or] at hnews
    obtain ⟨failure, hpending⟩ := Option.isSome_iff_exists.mp hnews
    rw [hpending]
    exact Or.inr ⟨failure, hzero, rfl, rfl⟩

/-- News stay news when more of the buffer is looked at. -/
theorem hasNews_scan (hnews : r.hasNews = true) : r.scan.hasNews = true := by
  rw [hasNews, Bool.or_eq_true, decide_eq_true_eq] at hnews ⊢
  rcases hnews with hcomplete | hpending
  · exact Or.inl (Nat.lt_of_lt_of_le hcomplete (Nat.le_add_right ..))
  · obtain ⟨failure, hfailure⟩ := Option.isSome_iff_exists.mp hpending
    refine Or.inr ?_
    change (r.pending.or _).isSome = true
    rw [hfailure, Option.some_or]
    rfl

theorem spent_of_check_waiting (hr : r.Sound) (hcheck : r.check = (.waiting, next)) :
    next = r.scan ∧ next.Spent ∧ next.ended = false := by
  cases hnews : r.scan.hasNews with
  | true =>
      rcases check_of_hasNews hnews with ⟨hdone, _⟩ | ⟨failure, _, _, hfailed⟩
      · rw [hdone] at hcheck
        cases hcheck
      · rw [hfailed] at hcheck
        cases hcheck
  | false =>
      have hspent := spent_scan hr hnews
      have heq := hspent.check_eq
      rw [check_scan hr, hcheck] at heq
      cases hended : r.scan.ended with
      | true =>
          rw [hended, if_pos rfl] at heq
          cases heq
      | false =>
          rw [hended, if_neg Bool.false_ne_true] at heq
          cases heq
          exact ⟨rfl, hspent, hended⟩

/-! ## Reading -/

theorem awaitFrom_scan (hr : r.Sound) (source : List Arrival) :
    awaitFrom source r.scan = awaitFrom source r := by
  cases source with
  | nil => simp only [awaitFrom, check_scan hr]
  | cons arrival rest => simp only [awaitFrom, check_scan hr]

/-- A wait takes its reads off the front of the source. -/
theorem source_awaitFrom_suffix (source : List Arrival) (r : Reader) :
    (awaitFrom source r).2.source <:+ source := by
  induction source generalizing r with
  | nil => exact List.suffix_rfl
  | cons arrival rest ih =>
      unfold awaitFrom
      split
      · exact (ih _).trans (List.suffix_cons arrival rest)
      · exact List.suffix_rfl

theorem source_await_suffix (closed : Bool) (r : Reader) :
    (r.await closed).2.source <:+ r.source := by
  unfold await
  split
  · exact List.suffix_rfl
  · exact source_awaitFrom_suffix _ _

/-- What is handed out comes from the buffer. -/
theorem source_readSome (closed expired : Bool) (r : Reader) :
    (r.readSome closed expired).2.source = (r.await closed).2.source := by
  unfold readSome
  split
  next next heq => rw [heq]
  next failure next heq => rw [heq]
  next next heq => rw [heq]

theorem spent_of_awaitFrom_waiting {source : List Arrival} (hr : r.Sound)
    (hawait : awaitFrom source r = (.waiting, next)) :
    next.Spent ∧ next.ended = false ∧ next.source = [] := by
  induction source generalizing r with
  | nil =>
      simp only [awaitFrom, Prod.mk.injEq] at hawait
      obtain ⟨houtcome, rfl⟩ := hawait
      obtain ⟨_, hspent, hended⟩ := spent_of_check_waiting hr (Prod.ext houtcome rfl)
      exact ⟨⟨hspent.complete_eq, hspent.pending_eq, hspent.wholePart_eq, hspent.fault_eq⟩,
        hended, rfl⟩
  | cons arrival rest ih =>
      have hchecked := hr.check
      unfold awaitFrom at hawait
      split at hawait
      next checked hcheck =>
        rw [hcheck] at hchecked
        exact ih (hchecked.receive arrival) hawait
      next outcome checked hnot hcheck =>
        -- whoever waits has read the source to its end
        obtain ⟨rfl, _⟩ := Prod.mk.inj hawait
        exact absurd rfl hnot

/-- A wait that goes on has read all there is and found nothing to say. -/
theorem spent_of_await_waiting {closed : Bool} (hr : r.Sound)
    (hawait : r.await closed = (.waiting, next)) :
    closed = false ∧ next.Spent ∧ next.ended = false ∧ next.source = [] := by
  unfold await at hawait
  split at hawait
  · cases hawait
  next hopen => exact ⟨Bool.eq_false_iff.mpr hopen, spent_of_awaitFrom_waiting hr hawait⟩

end Reader

end LongPollTunnel

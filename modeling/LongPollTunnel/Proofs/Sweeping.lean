import Mathlib.Data.List.Nodup
import LongPollTunnel.Proofs.Listings

/-! # What one sweep does

A sweep judges every entry of the registry by its tunnel, before it closes anything: it takes out
what is closed and what nobody has used for long enough, marks what is in use, and leaves the rest.
Then it closes what it took out, one tunnel after the other, and may have to wait for each. Main
statements: which entries are left and how, and how many of the tunnels that were taken out are
closed at each point.
-/

namespace LongPollTunnel

theorem Tunnel.isInUse_iff {t : Tunnel} :
    t.isInUse = true ↔ ∃ role, (t.seat role).isHeld = true := by
  rw [isInUse, Bool.or_eq_true]
  constructor
  · rintro (hreader | hwriter)
    · exact ⟨.reader, hreader⟩
    · exact ⟨.writer, hwriter⟩
  · rintro ⟨role, hheld⟩
    cases role with
    | reader => exact Or.inl hheld
    | writer => exact Or.inr hheld

/-! ## Entries -/

namespace Registry

/-- The tunnel is closed, or it is open, nobody has a seat of it, and it has not been used for as
long as the timeout. -/
def Entry.IsDue (e : Entry) (tunnels : List Tunnel) (now timeout : Nat) : Prop :=
  ∃ t : Tunnel, tunnels[e.tunnel]? = some t ∧
    (t.isOpen = false ∨
      t.isOpen = true ∧ (∀ role, (t.seat role).isHeld = false) ∧ timeout ≤ now - e.lastUsed)

/-- The tunnel is open and somebody has a seat of it. -/
def Entry.IsUsed (e : Entry) (tunnels : List Tunnel) : Prop :=
  ∃ (t : Tunnel) (role : Role), tunnels[e.tunnel]? = some t ∧ t.isOpen = true ∧
    (t.seat role).isHeld = true

/-- The entry of an identity. -/
def entryOf? (r : Registry) (identity : String) : Option Entry :=
  r.entries.find? (·.identity = identity)

variable {r : Registry} {tunnels : List Tunnel} {now timeout : Nat} {e : Entry}

theorem isFree_of_isInUse {t : Tunnel} (hfree : t.isInUse = false) (role : Role) :
    (t.seat role).isHeld = false := by
  cases hheld : (t.seat role).isHeld with
  | false => rfl
  | true =>
      rw [Tunnel.isInUse_iff.mpr ⟨role, hheld⟩] at hfree
      cases hfree

/-- What expires is what is closed, or was unused for too long. -/
theorem judge_eq_expire_iff :
    judge tunnels now timeout e = .expire ↔ e.IsDue tunnels now timeout := by
  unfold judge Entry.IsDue
  split
  next hnone => simp [hnone]
  next t ht =>
    simp only [ht, Option.some.injEq, exists_eq_left']
    cases hopen : t.isOpen with
    | false => simp
    | true =>
        cases huse : t.isInUse with
        | true =>
            obtain ⟨role, hheld⟩ := Tunnel.isInUse_iff.mp huse
            refine iff_of_false (by simp) ?_
            rintro (hclosed | ⟨-, hfree, -⟩)
            · cases hclosed
            · rw [hfree role] at hheld
              cases hheld
        | false =>
            have hfree := isFree_of_isInUse huse
            by_cases hold : timeout ≤ now - e.lastUsed <;> simp [hold, hfree]

/-- What is marked as used is what is in use. -/
theorem judge_eq_refresh_iff : judge tunnels now timeout e = .refresh ↔ e.IsUsed tunnels := by
  unfold judge Entry.IsUsed
  split
  next hnone => simp [hnone]
  next t ht =>
    simp only [ht, Option.some.injEq, exists_and_left, exists_eq_left']
    cases hopen : t.isOpen with
    | false => simp
    | true =>
        cases huse : t.isInUse with
        | true => simp [Tunnel.isInUse_iff.mp huse]
        | false =>
            have hfree := isFree_of_isInUse huse
            by_cases hold : timeout ≤ now - e.lastUsed <;> simp [hold, hfree]

theorem entryOf?_eq_some_iff (hdistinct : r.Distinct) {identity : String} :
    r.entryOf? identity = some e ↔ e ∈ r.entries ∧ e.identity = identity := by
  constructor
  · intro hentry
    exact ⟨List.mem_of_find?_eq_some hentry, by simpa using List.find?_some hentry⟩
  · rintro ⟨he, rfl⟩
    cases hentry : r.entryOf? e.identity with
    | none => exact absurd (List.find?_eq_none.mp hentry e he) (by simp)
    | some e' =>
        have hidentity : e'.identity = e.identity := by simpa using List.find?_some hentry
        rw [eq_of_identity hdistinct (List.mem_of_find?_eq_some hentry) he hidentity]

theorem entryOf?_eq_none_iff {identity : String} :
    r.entryOf? identity = none ↔ ∀ e ∈ r.entries, e.identity ≠ identity := by
  simp [entryOf?, List.find?_eq_none]

/-- What a sweep leaves is what did not expire, marked if it is in use. -/
theorem mem_sweep {e' : Entry} :
    e' ∈ (r.sweep tunnels now timeout).2.entries ↔
      ∃ e ∈ r.entries, judge tunnels now timeout e ≠ .expire ∧
        e' = if judge tunnels now timeout e = .refresh then { e with lastUsed := now } else e := by
  simp only [sweep, List.mem_map, List.mem_filter, decide_eq_true_eq, and_assoc]
  exact exists_congr fun e => and_congr_right fun _ => and_congr_right fun _ => eq_comm

/-- A sweep takes the tunnels out whose entries are due. -/
theorem mem_taken_iff {number : Nat} :
    number ∈ (r.sweep tunnels now timeout).1.map (·.tunnel) ↔
      ∃ e ∈ r.entries, e.IsDue tunnels now timeout ∧ e.tunnel = number := by
  simp only [sweep, List.mem_map, List.mem_filter, decide_eq_true_eq, judge_eq_expire_iff,
    and_assoc]

/-- What a sweep makes of a registry: the tunnels with the numbers `taken` are taken out, the
entries of those in use are as if they had been used just now, and the others are as they were. -/
structure IsSwept (r : Registry) (tunnels : List Tunnel) (now timeout : Nat) (taken : List Nat)
    (after : Registry) : Prop where
  due : ∀ e ∈ r.entries, e.IsDue tunnels now timeout → after.entryOf? e.identity = none
  used : ∀ e ∈ r.entries, e.IsUsed tunnels →
    after.entryOf? e.identity = some { e with lastUsed := now }
  rest : ∀ e ∈ r.entries, ¬ e.IsDue tunnels now timeout → ¬ e.IsUsed tunnels →
    after.entryOf? e.identity = some e
  absent : ∀ identity, r.entryOf? identity = none → after.entryOf? identity = none
  mem_taken : ∀ number, number ∈ taken ↔
    ∃ e ∈ r.entries, e.IsDue tunnels now timeout ∧ e.tunnel = number
  count : after.size + taken.length = r.size

/-- A sweep does to every entry what is to be done to it. -/
theorem isSwept_sweep (hdistinct : r.Distinct) (tunnels : List Tunnel) (now timeout : Nat) :
    r.IsSwept tunnels now timeout ((r.sweep tunnels now timeout).1.map (·.tunnel))
      (r.sweep tunnels now timeout).2 := by
  have hafter : (r.sweep tunnels now timeout).2.Distinct :=
    (Edit.sweeps tunnels now timeout (fun _ _ => trivial) :
      r.Edit (fun _ => False) (fun _ _ => True) _).distinct hdistinct
  -- an entry that is there afterwards is that of the same identity before
  have hbefore {e e' : Entry} (he : e ∈ r.entries)
      (he' : e' ∈ (r.sweep tunnels now timeout).2.entries) (hidentity : e'.identity = e.identity) :
      judge tunnels now timeout e ≠ .expire := by
    obtain ⟨found, hfound, hstays, rfl⟩ := mem_sweep.mp he'
    have hsame : found.identity = e.identity := by
      rw [← hidentity]
      split <;> rfl
    rwa [eq_of_identity hdistinct hfound he hsame] at hstays
  refine ⟨?_, ?_, ?_, ?_, fun _ => mem_taken_iff, ?_⟩
  · intro e he hdue
    rw [entryOf?_eq_none_iff]
    exact fun e' he' hidentity => hbefore he he' hidentity (judge_eq_expire_iff.mpr hdue)
  · intro e he hused
    have hjudge : judge tunnels now timeout e = .refresh := judge_eq_refresh_iff.mpr hused
    exact (entryOf?_eq_some_iff hafter).mpr
      ⟨mem_sweep.mpr ⟨e, he, by rw [hjudge]; nofun, (if_pos hjudge).symm⟩, rfl⟩
  · intro e he hdue hused
    exact (entryOf?_eq_some_iff hafter).mpr
      ⟨mem_sweep.mpr ⟨e, he, mt judge_eq_expire_iff.mp hdue,
        (if_neg (mt judge_eq_refresh_iff.mp hused)).symm⟩, rfl⟩
  · intro identity hnone
    rw [entryOf?_eq_none_iff] at hnone ⊢
    intro e' he' hidentity
    obtain ⟨e, he, -, rfl⟩ := mem_sweep.mp he'
    refine hnone e he (Eq.trans ?_ hidentity)
    split <;> rfl
  · rw [size, size, List.length_eq_length_filter_add
      (fun e => decide (judge tunnels now timeout e = .expire)) (l := r.entries), Nat.add_comm]
    simp only [sweep, List.length_map, ne_eq, decide_not]

end Registry

/-! ## Closing what was taken out -/

namespace Sweep

/-- How many tunnels were taken out. -/
def Progress.count : Progress → Nat
  | .done count => count
  | .waiting sweep => sweep.count

/-- What a sweep that took these tunnels out has to show so far: those that are not yet to be
closed are closed. -/
structure Progress.Accounts (progress : Progress) (taken : List Nat) (tunnels : List Tunnel) :
    Prop where
  count : progress.count = taken.length
  toClose : ∀ number ∈ progress.toClose, number ∈ taken
  closed : ∀ number ∈ taken, number ∈ progress.toClose ∨
    ∃ t : Tunnel, tunnels[number]? = some t ∧ t.isOpen = false

/-- The count is settled before anything is closed. -/
theorem count_closeEach (count : Nat) (numbers : List Nat) (tunnels : List Tunnel) :
    (closeEach count numbers tunnels).1.count = count := by
  induction numbers generalizing tunnels with
  | nil => rfl
  | cons number rest ih =>
      unfold closeEach
      split
      · exact ih tunnels
      · split
        next t' _ => exact ih (tunnels.set number t')
        · rfl

theorem count_resume {s : Sweep} {progress : Progress} {tunnels after : List Tunnel}
    (hresume : s.resume tunnels = some (progress, after)) : progress.count = s.count := by
  unfold resume at hresume
  split at hresume
  · cases hresume
  next t _ =>
    split at hresume
    · cases hresume
    next result t' _ =>
      have hcount := count_closeEach s.count s.rest (tunnels.set s.tunnel t')
      rwa [Option.some.inj hresume] at hcount

variable {taken : List Nat} {tunnels after : List Tunnel} {progress : Progress}

/-- As far as a sweep has come, it has closed what it had reached. -/
theorem accounts_of_closes {numbers reached : List Nat} {count : Nat}
    (hcount : progress.count = count) (htotal : count = taken.length)
    (hsplit : numbers = reached ++ progress.toClose) (hcloses : Closes reached tunnels after)
    (hsubset : ∀ number ∈ numbers, number ∈ taken)
    (hexists : ∀ number ∈ taken, ∃ t : Tunnel, tunnels[number]? = some t)
    (hclosed : ∀ number ∈ taken, number ∈ numbers ∨
      ∃ t : Tunnel, tunnels[number]? = some t ∧ t.isOpen = false) :
    progress.Accounts taken after := by
  refine ⟨hcount.trans htotal, ?_, ?_⟩
  · intro number hnumber
    exact hsubset number (hsplit ▸ List.mem_append_right reached hnumber)
  · intro number hnumber
    obtain ⟨t, ht⟩ := hexists number hnumber
    obtain ⟨t', ht', -, hopen⟩ := hcloses number t ht
    rcases hclosed number hnumber with hyet | ⟨found, hfound, hdown⟩
    · rw [hsplit] at hyet
      rcases List.mem_append.mp hyet with hreached | hlater
      · exact Or.inr ⟨t', ht', by simp [hopen, hreached]⟩
      · exact Or.inl hlater
    · rw [ht] at hfound
      cases hfound
      exact Or.inr ⟨t', ht', by simp [hopen, hdown]⟩

/-- What a new sweep has to show. -/
theorem accounts_start (r : Registry) (tunnels : List Tunnel) (now timeout : Nat) :
    (start r tunnels now timeout).1.Accounts ((r.sweep tunnels now timeout).1.map (·.tunnel))
      (start r tunnels now timeout).2.2 := by
  obtain ⟨reached, hsplit, hcloses⟩ := Closes.closeEach (r.sweep tunnels now timeout).1.length
    ((r.sweep tunnels now timeout).1.map (·.tunnel)) tunnels
  refine accounts_of_closes (count_closeEach _ _ _) (List.length_map _).symm hsplit hcloses (fun _ => id) ?_
    fun _ => Or.inl
  intro number hnumber
  obtain ⟨e, -, ⟨t, ht, -⟩, rfl⟩ := Registry.mem_taken_iff.mp hnumber
  exact ⟨t, ht⟩

/-- What a sweep that goes on has to show. -/
theorem Progress.Accounts.resume {s : Sweep} (hs : (Progress.waiting s).Accounts taken tunnels)
    (hexists : ∀ number ∈ taken, ∃ t : Tunnel, tunnels[number]? = some t)
    (hresume : s.resume tunnels = some (progress, after)) : progress.Accounts taken after := by
  obtain ⟨reached, hsplit, hcloses⟩ := Closes.resume hresume
  exact accounts_of_closes (count_resume hresume) hs.count hsplit hcloses hs.toClose hexists
    hs.closed

/-- A sweep that is done has closed all that it took out. -/
theorem Progress.Accounts.of_done {count : Nat}
    (hdone : (Progress.done count).Accounts taken tunnels) :
    count = taken.length ∧
      ∀ number ∈ taken, ∃ t : Tunnel, tunnels[number]? = some t ∧ t.isOpen = false :=
  ⟨hdone.count, fun number hnumber => (hdone.closed number hnumber).resolve_left List.not_mem_nil⟩

end Sweep

end LongPollTunnel

import LongPollTunnel.Proofs.Listings

/-! # What is registered is open

A service whose tunnels are registered by requests, each under a new identity, takes a tunnel
out of the registry before it closes it, whether a request has failed or a sweep has come.
Main statement: in such a service whatever is registered is an open tunnel under its own
identity, and what is registered no more is closed, or a running sweep has yet to close it.
-/

namespace LongPollTunnel

namespace Identity

theorem lower_ne_hyphen : ∀ d : Fin 16, Hex.lower d.val ≠ '-' := by
  decide

theorem lower_injective : ∀ d d' : Fin 16, Hex.lower d.val = Hex.lower d'.val → d = d' := by
  decide

theorem length_hyphenate {digits : List Char} (hlength : digits.length = 32) :
    (hyphenate digits).length = textLength := by
  simp [hyphenate, hlength, textLength]

/-- The text of an identity is as long as its hyphens and digits. -/
theorem length_text (i : Identity) : i.text.length = textLength := by
  rw [text, String.length_ofList]
  exact length_hyphenate (by rw [List.length_map, i.size_eq])

/-- Without the hyphens the digits are left. -/
theorem filter_hyphenate {digits : List Char} (hnone : ∀ c ∈ digits, c ≠ '-') :
    (hyphenate digits).filter (· ≠ '-') = digits := by
  have hgroup (n m : Nat) : ((digits.drop n).take m).filter (· ≠ '-') ++
      (digits.drop (n + m)).filter (· ≠ '-') = (digits.drop n).filter (· ≠ '-') := by
    rw [← List.drop_drop, ← List.filter_append, List.take_append_drop]
  have hall : digits.filter (· ≠ '-') = digits :=
    List.filter_eq_self.mpr fun c hc => decide_eq_true (hnone c hc)
  have hparts : (hyphenate digits).filter (· ≠ '-') =
      ((digits.drop 0).take 8).filter (· ≠ '-') ++ (((digits.drop 8).take 4).filter (· ≠ '-') ++
        (((digits.drop 12).take 4).filter (· ≠ '-') ++ (((digits.drop 16).take 4).filter (· ≠ '-') ++
          (digits.drop 20).filter (· ≠ '-')))) := by
    simp [hyphenate]
  rw [hparts, hgroup 16 4, hgroup 12 4, hgroup 8 4, hgroup 0 8, List.drop_zero, hall]

/-- Different identities have different texts. -/
theorem text_injective {i i' : Identity} (htext : i.text = i'.text) : i = i' := by
  have hnone (i : Identity) : ∀ c ∈ i.digits.map fun d => Hex.lower d.val, c ≠ '-' :=
    List.forall_mem_map.mpr fun d _ => lower_ne_hyphen d
  have hcharacters : i.characters = i'.characters := String.ofList_injective htext
  have hdigits := congrArg (List.filter (· ≠ '-')) hcharacters
  rw [characters, characters, filter_hyphenate (hnone i), filter_hyphenate (hnone i')] at hdigits
  have hsame : i.digits = i'.digits :=
    List.map_injective_iff.mpr (fun d d' => lower_injective d d') hdigits
  cases i
  cases i'
  cases hsame
  rfl

end Identity

/-- The tunnels exist, and no two of them have the same identity. -/
structure AreDistinct (known : Nat → Prop) (tunnels : List Tunnel) : Prop where
  exists_tunnel : ∀ number, known number → ∃ t : Tunnel, tunnels[number]? = some t
  eq_of_identity : ∀ (number other : Nat) (t t' : Tunnel), known number → known other →
    tunnels[number]? = some t → tunnels[other]? = some t' → t.identity = t'.identity →
    number = other

namespace AreDistinct

variable {known : Nat → Prop} {tunnels after : List Tunnel} {number : Nat} {t : Tunnel}

/-- Closing tunnels does not make their identities less distinct. -/
theorem closes (hdistinct : AreDistinct known tunnels) {reached : List Nat}
    (hcloses : Closes reached tunnels after) : AreDistinct known after where
  exists_tunnel := by
    intro number hknown
    obtain ⟨t, ht⟩ := hdistinct.exists_tunnel number hknown
    obtain ⟨t', ht', _⟩ := hcloses number t ht
    exact ⟨t', ht'⟩
  eq_of_identity := by
    intro number other t t' hknown hknown' ht ht' hidentity
    obtain ⟨before, hbefore⟩ := hdistinct.exists_tunnel number hknown
    obtain ⟨before', hbefore'⟩ := hdistinct.exists_tunnel other hknown'
    obtain ⟨_, hthere, hsame, _⟩ := hcloses number before hbefore
    obtain ⟨_, hthere', hsame', _⟩ := hcloses other before' hbefore'
    rw [ht] at hthere
    rw [ht'] at hthere'
    cases hthere
    cases hthere'
    exact hdistinct.eq_of_identity number other before before' hknown hknown' hbefore hbefore'
      (hsame.symm.trans (hidentity.trans hsame'))

/-- A tunnel may come to be known whose identity nobody known has. -/
theorem insert (hdistinct : AreDistinct known tunnels) (ht : tunnels[number]? = some t)
    (hfresh : ∀ (other : Nat) (t' : Tunnel), known other → tunnels[other]? = some t' →
      t'.identity ≠ t.identity) :
    AreDistinct (fun other => known other ∨ other = number) tunnels where
  exists_tunnel := by
    rintro other (hknown | rfl)
    · exact hdistinct.exists_tunnel other hknown
    · exact ⟨t, ht⟩
  eq_of_identity := by
    rintro other other' t' t'' (hknown | rfl) (hknown' | rfl) ht' ht'' hidentity
    · exact hdistinct.eq_of_identity other other' t' t'' hknown hknown' ht' ht'' hidentity
    · rw [ht] at ht''
      cases ht''
      exact absurd hidentity (hfresh other t' hknown ht')
    · rw [ht] at ht'
      cases ht'
      exact absurd hidentity.symm (hfresh other' t'' hknown' ht'')
    · rfl

end AreDistinct

namespace Hub

/-- What is registered is open, and what is known is registered, closed, or yet to close. -/
structure IsAccounted (known : Nat → Prop) (h : Hub) : Prop where
  distinct : AreDistinct known h.tunnels
  listed : ∀ identity number, (identity, number) ∈ h.listed → known number ∧
    ∃ t, h.tunnels[number]? = some t ∧ t.identity.text = identity ∧ t.isOpen = true
  once : (h.listed.map Prod.snd).Nodup
  served : ∀ number ∈ h.served, known number
  toClose : ∀ number ∈ h.toClose, known number ∧ number ∉ h.listed.map Prod.snd
  accounted : ∀ number, known number →
    number ∈ h.listed.map Prod.snd ∨ h.isClosedAt number = true ∨ number ∈ h.toClose

variable {h next : Hub} {known : Nat → Prop} {reached : List Nat}

/-- A closed tunnel stays closed. -/
theorem isClosedAt_stays {number : Nat} (hcloses : Closes reached h.tunnels next.tunnels)
    (hclosed : h.isClosedAt number = true) : next.isClosedAt number = true := by
  obtain ⟨t, ht, hbefore⟩ := isClosedAt_iff.mp hclosed
  obtain ⟨t', ht', _, hopen⟩ := hcloses number t ht
  exact isClosedAt_iff.mpr ⟨t', ht', by simp [hopen, hbefore]⟩

theorem isClosedAt_of_reached {number : Nat} {t : Tunnel}
    (hcloses : Closes reached h.tunnels next.tunnels) (ht : h.tunnels[number]? = some t)
    (hreached : number ∈ reached) : next.isClosedAt number = true := by
  obtain ⟨t', ht', _, hopen⟩ := hcloses number t ht
  exact isClosedAt_iff.mpr ⟨t', ht', by simp [hopen, hreached]⟩

/-- A tunnel that was passed over is open as before. -/
theorem exists_open_of_closes {number : Nat} {t : Tunnel} {identity : String}
    (hcloses : Closes reached h.tunnels next.tunnels) (ht : h.tunnels[number]? = some t)
    (hidentity : t.identity.text = identity) (hopen : t.isOpen = true)
    (hpassed : number ∉ reached) :
    ∃ t', next.tunnels[number]? = some t' ∧ t'.identity.text = identity ∧ t'.isOpen = true := by
  obtain ⟨t', ht', hsame, hstill⟩ := hcloses number t ht
  refine ⟨t', ht', ?_, ?_⟩
  · rw [hsame, hidentity]
  · simp [hstill, hopen, hpassed]

namespace IsAccounted

theorem known_of_listed (haccounted : h.IsAccounted known) {number : Nat}
    (hlisted : number ∈ h.listed.map Prod.snd) : known number := by
  obtain ⟨⟨identity, number⟩, hmem, rfl⟩ := List.mem_map.mp hlisted
  exact (haccounted.listed identity number hmem).1

/-- Requests are only handled for known tunnels. -/
theorem known_of_served (haccounted : h.IsAccounted known)
    (hserved : next.served ⊆ h.served ++ h.listed.map Prod.snd) :
    ∀ number ∈ next.served, known number := by
  intro number hnumber
  rcases List.mem_append.mp (hserved hnumber) with hold | hlisted
  · exact haccounted.served number hold
  · exact haccounted.known_of_listed hlisted

/-- A tunnel is registered that is open and has a new identity. -/
theorem registers (haccounted : h.IsAccounted known) {number : Nat} {t : Tunnel}
    (ht : h.tunnels[number]? = some t) (hopen : t.isOpen = true)
    (hfresh : ∀ (other : Nat) (t' : Tunnel), known other → h.tunnels[other]? = some t' →
      t'.identity ≠ t.identity)
    (hlisted : next.listed =
      h.listed.filter (·.1 ≠ t.identity.text) ++ [(t.identity.text, number)])
    (hcloses : Closes [] h.tunnels next.tunnels) (htoClose : next.toClose = h.toClose)
    (hserved : next.served ⊆ h.served ++ h.listed.map Prod.snd) :
    next.IsAccounted fun other => known other ∨ other = number := by
  have hnew : ¬ known number := fun hknown => hfresh number t hknown ht rfl
  have hnumber : number ∉ h.listed.map Prod.snd := mt haccounted.known_of_listed hnew
  -- nothing was registered under the new identity
  have hstays : h.listed.filter (·.1 ≠ t.identity.text) = h.listed := by
    rw [List.filter_eq_self]
    rintro ⟨identity, other⟩ hmem
    obtain ⟨hknown, t', ht', hidentity, _⟩ := haccounted.listed identity other hmem
    refine decide_eq_true ?_
    rintro rfl
    exact hfresh other t' hknown ht' (Identity.text_injective hidentity)
  rw [hstays] at hlisted
  have hnumbers : next.listed.map Prod.snd = h.listed.map Prod.snd ++ [number] := by
    rw [hlisted, List.map_append, List.map_singleton]
  refine ⟨(haccounted.distinct.insert ht hfresh).closes hcloses, ?_, ?_, ?_, ?_, ?_⟩
  · intro identity other hmem
    rw [hlisted] at hmem
    rcases List.mem_append.mp hmem with hold | hlast
    · obtain ⟨hknown, t', ht', hidentity, hopen'⟩ := haccounted.listed identity other hold
      exact ⟨Or.inl hknown,
        exists_open_of_closes hcloses ht' hidentity hopen' List.not_mem_nil⟩
    · cases List.mem_singleton.mp hlast
      exact ⟨Or.inr rfl, exists_open_of_closes hcloses ht rfl hopen List.not_mem_nil⟩
  · rw [hnumbers]
    refine List.nodup_append.mpr ⟨haccounted.once, List.nodup_singleton _, ?_⟩
    rintro other hother last hlast rfl
    rw [List.mem_singleton.mp hlast] at hother
    exact hnumber hother
  · exact fun other hother => Or.inl (haccounted.known_of_served hserved other hother)
  · intro other hother
    rw [htoClose] at hother
    obtain ⟨hknown, hunlisted⟩ := haccounted.toClose other hother
    refine ⟨Or.inl hknown, ?_⟩
    rw [hnumbers]
    intro hmem
    rcases List.mem_append.mp hmem with hold | hlast
    · exact hunlisted hold
    · rw [List.mem_singleton.mp hlast] at hknown
      exact hnew hknown
  · rw [hnumbers, htoClose]
    rintro other (hknown | rfl)
    · rcases haccounted.accounted other hknown with hlisted' | hclosed | hyet
      · exact Or.inl (List.mem_append_left _ hlisted')
      · exact Or.inr (Or.inl (isClosedAt_stays hcloses hclosed))
      · exact Or.inr (Or.inr hyet)
    · exact Or.inl (List.mem_append_right _ (List.mem_singleton_self _))

/-- A tunnel is taken out under its identity and closed. -/
theorem takesDown (haccounted : h.IsAccounted known) {number : Nat} {t : Tunnel}
    (hserves : number ∈ h.served) (ht : h.tunnels[number]? = some t)
    (hlisted : next.listed = h.listed.filter (·.1 ≠ t.identity.text))
    (hcloses : Closes [number] h.tunnels next.tunnels) (htoClose : next.toClose = h.toClose)
    (hserved : next.served ⊆ h.served ++ h.listed.map Prod.snd) : next.IsAccounted known := by
  have hsublist : (next.listed.map Prod.snd).Sublist (h.listed.map Prod.snd) := by
    rw [hlisted]
    exact List.filter_sublist.map _
  refine ⟨haccounted.distinct.closes hcloses, ?_, haccounted.once.sublist hsublist,
    haccounted.known_of_served hserved, ?_, ?_⟩
  · intro identity other hmem
    rw [hlisted] at hmem
    obtain ⟨hold, hne⟩ := List.mem_filter.mp hmem
    obtain ⟨hknown, t', ht', hidentity, hopen⟩ := haccounted.listed identity other hold
    refine ⟨hknown, exists_open_of_closes hcloses ht' hidentity hopen ?_⟩
    -- the tunnel that is closed has the identity that was taken out
    intro hreached
    rw [List.mem_singleton.mp hreached, ht] at ht'
    cases ht'
    exact of_decide_eq_true hne hidentity.symm
  · intro other hother
    rw [htoClose] at hother
    obtain ⟨hknown, hunlisted⟩ := haccounted.toClose other hother
    exact ⟨hknown, fun hmem => hunlisted (hsublist.subset hmem)⟩
  · intro other hknown
    obtain ⟨t', ht'⟩ := haccounted.distinct.exists_tunnel other hknown
    rcases haccounted.accounted other hknown with hold | hclosed | hyet
    · obtain ⟨⟨identity, other⟩, hmem, rfl⟩ := List.mem_map.mp hold
      by_cases heq : identity = t.identity.text
      · -- what was registered under this identity is the tunnel that is closed
        obtain ⟨_, found, hfound, hidentity, _⟩ := haccounted.listed identity other hmem
        have hsame := haccounted.distinct.eq_of_identity other number found t hknown
          (haccounted.served number hserves) hfound ht
          (Identity.text_injective (hidentity.trans heq))
        exact Or.inr (Or.inl
          (isClosedAt_of_reached hcloses hfound (List.mem_singleton.mpr hsame)))
      · refine Or.inl (List.mem_map.mpr ⟨(identity, other), ?_, rfl⟩)
        rw [hlisted]
        exact List.mem_filter.mpr ⟨hmem, decide_eq_true heq⟩
    · exact Or.inr (Or.inl (isClosedAt_stays hcloses hclosed))
    · rw [htoClose]
      exact Or.inr (Or.inr hyet)

/-- What a sweep reaches it has taken out. -/
theorem sweeps (haccounted : h.IsAccounted known) {taken : List (String × Nat)}
    (hlisted : h.listed.Perm (next.listed ++ taken))
    (htoClose : (h.toClose ++ taken.map Prod.snd).Perm (next.toClose ++ reached))
    (hcloses : Closes reached h.tunnels next.tunnels)
    (hserved : next.served ⊆ h.served ++ h.listed.map Prod.snd) : next.IsAccounted known := by
  have hnumbers : (h.listed.map Prod.snd).Perm (next.listed.map Prod.snd ++ taken.map Prod.snd) := by
    rw [← List.map_append]
    exact hlisted.map _
  obtain ⟨honce, _, hdisjoint⟩ := List.nodup_append.mp (hnumbers.nodup haccounted.once)
  have hout : ∀ number ∈ h.toClose ++ taken.map Prod.snd,
      known number ∧ number ∉ next.listed.map Prod.snd := by
    intro number hnumber
    rcases List.mem_append.mp hnumber with hold | htaken
    · obtain ⟨hknown, hunlisted⟩ := haccounted.toClose number hold
      exact ⟨hknown,
        fun hmem => hunlisted (hnumbers.symm.subset (List.mem_append_left _ hmem))⟩
    · refine ⟨haccounted.known_of_listed
        (hnumbers.symm.subset (List.mem_append_right _ htaken)), ?_⟩
      exact fun hmem => hdisjoint number hmem number htaken rfl
  refine ⟨haccounted.distinct.closes hcloses, ?_, honce,
    haccounted.known_of_served hserved, ?_, ?_⟩
  · intro identity number hmem
    obtain ⟨hknown, t, ht, hidentity, hopen⟩ := haccounted.listed identity number
      (hlisted.symm.subset (List.mem_append_left _ hmem))
    refine ⟨hknown, exists_open_of_closes hcloses ht hidentity hopen ?_⟩
    intro hreached
    exact (hout number (htoClose.symm.subset (List.mem_append_right _ hreached))).2
      (List.mem_map_of_mem hmem)
  · exact fun number hnumber =>
      hout number (htoClose.symm.subset (List.mem_append_left _ hnumber))
  · intro number hknown
    have hleft (hyet : number ∈ h.toClose ++ taken.map Prod.snd) :
        next.isClosedAt number = true ∨ number ∈ next.toClose := by
      rcases List.mem_append.mp (htoClose.subset hyet) with hlater | hreached
      · exact Or.inr hlater
      · obtain ⟨t, ht⟩ := haccounted.distinct.exists_tunnel number hknown
        exact Or.inl (isClosedAt_of_reached hcloses ht hreached)
    rcases haccounted.accounted number hknown with hold | hclosed | hyet
    · rcases List.mem_append.mp (hnumbers.subset hold) with hstays | htaken
      · exact Or.inl hstays
      · exact Or.inr (hleft (List.mem_append_right _ htaken))
    · exact Or.inr (Or.inl (isClosedAt_stays hcloses hclosed))
    · exact Or.inr (hleft (List.mem_append_left _ hyet))

theorem congr (haccounted : h.IsAccounted known) {known' : Nat → Prop}
    (hsame : ∀ number, known number ↔ known' number) : h.IsAccounted known' := by
  have heq : known = known' := funext fun number => propext (hsame number)
  rw [← heq]
  exact haccounted

end IsAccounted

/-! ## Runs -/

def identity? (h : Hub) (number : Nat) : Option Identity :=
  h.tunnels[number]?.map (·.identity)

/-- The tunnel that was registered by a request. -/
def Record.connected? (r : Record) : Option Nat :=
  r.before.connected? r.move

/-- A run of a service: tunnels are registered by requests only, each open and under an
identity that is new, and are taken out and closed by requests and sweeps only, and no sweep is
dropped that has tunnels yet to close. -/
structure IsService (log : List Record) : Prop where
  permits : ∀ r ∈ log, r.before.permits r.move = true
  isOpen : ∀ r ∈ log, ∀ number ∈ r.connected?, r.before.isOpenAt number = true
  fresh : log.Pairwise fun earlier later =>
    ∀ other ∈ earlier.connected?, ∀ number ∈ later.connected?,
      later.before.identity? other ≠ later.before.identity? number

theorem isService_iff {log : List Record} :
    IsService log ↔ (∀ r ∈ log, r.before.permits r.move = true) ∧
      (∀ r ∈ log, ∀ number ∈ r.connected?, r.before.isOpenAt number = true) ∧
      log.Pairwise fun earlier later =>
        ∀ other ∈ earlier.connected?, ∀ number ∈ later.connected?,
          later.before.identity? other ≠ later.before.identity? number :=
  ⟨fun hservice => ⟨hservice.permits, hservice.isOpen, hservice.fresh⟩,
    fun ⟨hpermits, hopen, hfresh⟩ => ⟨hpermits, hopen, hfresh⟩⟩

instance (log : List Record) : Decidable (IsService log) :=
  decidable_of_iff _ isService_iff.symm

/-- The tunnel with this number was registered at some time. -/
def WasListed (log : List Record) (number : Nat) : Prop :=
  ∃ r ∈ log, number ∈ r.after.listed.map Prod.snd

variable {log : List Record} {move : Move}

/-- A service run was one before its last move. -/
theorem IsService.of_snoc {r : Record} (hservice : IsService (log ++ [r])) : IsService log where
  permits := fun r hr => hservice.permits r (List.mem_append_left _ hr)
  isOpen := fun r hr => hservice.isOpen r (List.mem_append_left _ hr)
  fresh := (List.pairwise_append.mp hservice.fresh).1

/-- A tunnel was listed if it was before the last move, or is after it. -/
theorem wasListed_snoc {r : Record} {number : Nat} :
    WasListed (log ++ [r]) number ↔ WasListed log number ∨ number ∈ r.after.listed.map Prod.snd := by
  simp only [WasListed, List.mem_append, List.mem_singleton, or_and_right, exists_or,
    exists_eq_left]

/-- Whatever was registered is accounted for and was registered by a request. -/
structure IsKept (log : List Record) (h : Hub) : Prop where
  accounted : h.IsAccounted (WasListed log)
  connected : ∀ number, WasListed log number → ∃ r ∈ log, number ∈ r.connected?

theorem isKept_empty : IsKept [] {} := by
  have hnone (number : Nat) : ¬ WasListed [] number := by simp [WasListed]
  have hdistinct : AreDistinct (WasListed []) [] :=
    ⟨fun number hwas => absurd hwas (hnone number),
      fun number _ _ _ hwas => absurd hwas (hnone number)⟩
  refine ⟨⟨hdistinct, ?_, List.nodup_nil, ?_, ?_, fun number hwas => absurd hwas (hnone number)⟩,
    fun number hwas => absurd hwas (hnone number)⟩
  · rintro identity number ⟨⟩
  · rintro number ⟨⟩
  · rintro number ⟨⟩

/-- Where whatever is registered was so before, no tunnel becomes known. -/
theorem IsKept.stays (hkept : IsKept log h)
    (hstays : next.listed.map Prod.snd ⊆ h.listed.map Prod.snd)
    (hnext : next.IsAccounted (WasListed log)) : IsKept (log ++ [⟨h, move, next⟩]) next := by
  have hsame (number : Nat) :
      WasListed log number ↔ WasListed (log ++ [⟨h, move, next⟩]) number := by
    rw [wasListed_snoc]
    refine (or_iff_left_of_imp fun hlisted => ?_).symm
    exact hkept.accounted.known_of_listed (hstays hlisted)
  refine ⟨hnext.congr hsame, fun number hwas => ?_⟩
  obtain ⟨r, hr, hconnected⟩ := hkept.connected number ((hsame number).mpr hwas)
  exact ⟨r, List.mem_append_left _ hr, hconnected⟩

theorem IsKept.registers (hkept : IsKept log h) {number : Nat}
    (hconnected : number ∈ h.connected? move) (hlisted : number ∈ next.listed.map Prod.snd)
    (hnext : next.IsAccounted fun other => WasListed log other ∨ other = number) :
    IsKept (log ++ [⟨h, move, next⟩]) next := by
  have hsame (other : Nat) :
      WasListed log other ∨ other = number ↔ WasListed (log ++ [⟨h, move, next⟩]) other := by
    rw [wasListed_snoc]
    constructor
    · rintro (hwas | rfl)
      · exact Or.inl hwas
      · exact Or.inr hlisted
    · rintro (hwas | hmem)
      · exact Or.inl hwas
      · exact hnext.known_of_listed hmem
  refine ⟨hnext.congr hsame, fun other hwas => ?_⟩
  rcases (hsame other).mpr hwas with hbefore | rfl
  · obtain ⟨r, hr, hearlier⟩ := hkept.connected other hbefore
    exact ⟨r, List.mem_append_left _ hr, hearlier⟩
  · exact ⟨_, List.mem_append_right _ (List.mem_singleton_self _), hconnected⟩

/-- A tunnel that a request registers has an identity that none of the known tunnels has. -/
theorem IsService.ne_of_wasListed (hservice : IsService (log ++ [⟨h, move, next⟩]))
    (hkept : IsKept log h) {number : Nat} {t : Tunnel} (hconnected : number ∈ h.connected? move)
    (ht : h.tunnels[number]? = some t) (other : Nat) (t' : Tunnel) (hwas : WasListed log other)
    (ht' : h.tunnels[other]? = some t') : t'.identity ≠ t.identity := by
  obtain ⟨r, hr, hearlier⟩ := hkept.connected other hwas
  have hne := (List.pairwise_append.mp hservice.fresh).2.2 r hr _ (List.mem_singleton_self _)
    other hearlier number hconnected
  simpa [identity?, ht, ht'] using hne

/-- The step lemma, one case per effect of a move. -/
theorem IsKept.after? (hkept : IsKept log h) (hmove : h.after? move = some next)
    (hservice : IsService (log ++ [⟨h, move, next⟩])) : IsKept (log ++ [⟨h, move, next⟩]) next := by
  have hlast : ⟨h, move, next⟩ ∈ log ++ [⟨h, move, next⟩] :=
    List.mem_append_right _ (List.mem_singleton_self _)
  cases effect_after? hmove (hservice.permits _ hlast) with
  | @registers number t hconnected ht hlisted hcloses htoClose hserved =>
      obtain ⟨t', ht', hopen⟩ := isOpenAt_iff.mp (hservice.isOpen _ hlast number hconnected)
      rw [ht] at ht'
      cases ht'
      refine hkept.registers hconnected ?_ (hkept.accounted.registers ht hopen
        (hservice.ne_of_wasListed hkept hconnected ht) hlisted hcloses htoClose hserved)
      rw [hlisted, List.map_append]
      exact List.mem_append_right _ (List.mem_singleton_self _)
  | takesDown hserves ht hlisted hcloses htoClose hserved =>
      refine hkept.stays ?_
        (hkept.accounted.takesDown hserves ht hlisted hcloses htoClose hserved)
      rw [hlisted]
      exact (List.filter_sublist.map _).subset
  | sweeps taken reached hlisted htoClose hcloses hserved =>
      refine hkept.stays ?_ (hkept.accounted.sweeps hlisted htoClose hcloses hserved)
      refine List.Subset.trans ?_ (hlisted.map Prod.snd).symm.subset
      rw [List.map_append]
      exact List.subset_append_left _ _

/-- The run lemma. -/
theorem isKept_of_run (hrun : Run {} log h) (hservice : IsService log) : IsKept log h := by
  induction hrun with
  | nil => exact isKept_empty
  | snoc _ hmove ih => exact (ih hservice.of_snoc).after? hmove hservice

theorem tunnel_mem_listed {e : Registry.Entry} (he : e ∈ h.registry.entries) :
    e.tunnel ∈ h.listed.map Prod.snd :=
  List.mem_map_of_mem (List.mem_map_of_mem he)

theorem exists_entry_of_listed {number : Nat} (hlisted : number ∈ h.listed.map Prod.snd) :
    ∃ e ∈ h.registry.entries, e.tunnel = number := by
  obtain ⟨p, hp, rfl⟩ := List.mem_map.mp hlisted
  obtain ⟨e, he, rfl⟩ := List.mem_map.mp hp
  exact ⟨e, he, rfl⟩

/-- In every state of a service, every entry of the registry has as its key the identity of its
tunnel, written in 36 characters, and the tunnel is open, so that no lookup gives a tunnel that
was taken down. A tunnel that was registered and is no more is closed, unless a running sweep
took it out and has yet to close it. -/
theorem registered_is_open (hrun : Run {} log h) (hservice : IsService log) :
    (∀ e ∈ h.registry.entries, e.identity.length = Identity.textLength ∧
      ∃ t, h.tunnels[e.tunnel]? = some t ∧ t.identity.text = e.identity ∧ t.isOpen = true) ∧
    (∀ identity number, (h.registry.get identity h.now).1 = some number →
      ∃ t, h.tunnels[number]? = some t ∧ t.identity.text = identity ∧ t.isOpen = true) ∧
    ∀ r ∈ log, ∀ e ∈ r.after.registry.entries,
      (∃ e' ∈ h.registry.entries, e'.tunnel = e.tunnel) ∨ h.isClosedAt e.tunnel = true ∨
        e.tunnel ∈ h.toClose := by
  have haccounted := (isKept_of_run hrun hservice).accounted
  refine ⟨?_, ?_, ?_⟩
  · intro e he
    obtain ⟨_, t, ht, hidentity, hopen⟩ :=
      haccounted.listed e.identity e.tunnel (List.mem_map_of_mem he)
    refine ⟨?_, t, ht, hidentity, hopen⟩
    rw [← hidentity]
    exact t.identity.length_text
  · intro identity number hfound
    exact (haccounted.listed identity number (Registry.mem_listed_of_find? hfound)).2
  · intro r hr e he
    exact (haccounted.accounted e.tunnel ⟨r, hr, tunnel_mem_listed he⟩).imp_left
      exists_entry_of_listed

/-- A sweep has to wait for the first of two tunnels that it took out, and a third is
registered meanwhile. -/
def sweptAway : List Move :=
  let connect (number : Nat) : Request :=
    { query := Operation.connectQuery, connection := .ok number }
  [.act (.open (Identity.random 0) none { shutdownBlocks := true } []),
    .act (.open (Identity.random 1) none {} []),
    .act (.call "first" (.request (connect 0))), .act (.call "second" (.request (connect 1))),
    .act (.call "reaper" (.sweep 0)),
    .act (.open (Identity.random 2) none {} []), .act (.call "third" (.request (connect 2)))]

theorem registered_is_open_while_swept :
    IsService (({} : Hub).replay sweptAway).1 ∧
      (({} : Hub).replay sweptAway).2.registry.find? (Identity.random 2).text = some 2 ∧
      (({} : Hub).replay sweptAway).2.isOpenAt 2 = true ∧
      (({} : Hub).replay sweptAway).2.isClosedAt 0 = true ∧
      (({} : Hub).replay sweptAway).2.isOpenAt 1 = true ∧
      (({} : Hub).replay sweptAway).2.toClose = [1] := by
  have hservice : IsService (({} : Hub).replay sweptAway).1 := by decide
  have hfound : (({} : Hub).replay sweptAway).2.registry.find? (Identity.random 2).text =
      some 2 := by decide
  obtain ⟨_, hlookup, _⟩ := registered_is_open (run_replay {} sweptAway) hservice
  obtain ⟨t, ht, _, hopen⟩ := hlookup (Identity.random 2).text 2 hfound
  exact ⟨hservice, hfound, isOpenAt_iff.mpr ⟨t, ht, hopen⟩, by decide, by decide, by decide⟩

end Hub

end LongPollTunnel

import Mathlib.Data.List.Find
import Mathlib.Data.List.Nodup
import LongPollTunnel.Proofs.Registered

/-! # The part of a hub that is about one tunnel

Each request is about one tunnel, and so is the stream that it may start. The part of a hub that
is about a tunnel is a hub again: it has the calls and the streams that are about the tunnel,
numbered anew, and what is registered of it. Main statement: what is done about one tunnel
changes no other's part.
-/

namespace LongPollTunnel

/-! ## Lists of which some elements are kept -/

/-- The number that an element of a list has among those that are kept. -/
def placeOf {α : Type} (keep : α → Bool) (l : List α) (i : Nat) : Nat :=
  (l.take i).countP keep

section

variable {α : Type} {keep : α → Bool} {l : List α} {i : Nat} {a b : α}

/-- What comes behind a list has its place behind all of it that is kept. -/
theorem placeOf_length (keep : α → Bool) (l more : List α) :
    placeOf keep (l ++ more) l.length = (l.filter keep).length := by
  rw [placeOf, List.take_left, List.countP_eq_length_filter]

/-- What is kept is found at its place. -/
theorem getElem?_filter_placeOf (hget : l[i]? = some a) (hkeep : keep a = true) :
    (l.filter keep)[placeOf keep l i]? = some a := by
  induction l generalizing i with
  | nil => cases hget
  | cons head tail ih =>
      cases i with
      | zero =>
          cases hget
          simp [placeOf, hkeep]
      | succ i =>
          have htail := ih hget
          unfold placeOf at htail ⊢
          cases hhead : keep head with
          | true => simpa [hhead] using htail
          | false => simpa [hhead] using htail

/-- Whatever has a place among those that are kept is one of the list. -/
theorem exists_placeOf {k : Nat} (hget : (l.filter keep)[k]? = some a) :
    ∃ i, l[i]? = some a ∧ keep a = true ∧ placeOf keep l i = k := by
  induction l generalizing k with
  | nil => cases hget
  | cons head tail ih =>
      cases hhead : keep head with
      | true =>
          rw [List.filter_cons_of_pos hhead] at hget
          cases k with
          | zero =>
              cases hget
              exact ⟨0, rfl, hhead, rfl⟩
          | succ k =>
              obtain ⟨i, hi, hkeep, hplace⟩ := ih hget
              refine ⟨i + 1, hi, hkeep, ?_⟩
              unfold placeOf at hplace ⊢
              rw [List.take_succ_cons, List.countP_cons_of_pos hhead, hplace]
      | false =>
          rw [List.filter_cons_of_neg (by simp [hhead])] at hget
          obtain ⟨i, hi, hkeep, hplace⟩ := ih hget
          refine ⟨i + 1, hi, hkeep, ?_⟩
          unfold placeOf at hplace ⊢
          rw [List.take_succ_cons, List.countP_cons_of_neg (by simp [hhead]), hplace]

/-- A kept element that changes does so at its place. -/
theorem filter_set_of_keep (hget : l[i]? = some a) (hkeep : keep a = true)
    (hkeep' : keep b = true) :
    (l.set i b).filter keep = (l.filter keep).set (placeOf keep l i) b := by
  induction l generalizing i with
  | nil => cases hget
  | cons head tail ih =>
      cases i with
      | zero =>
          cases hget
          simp [placeOf, hkeep, hkeep']
      | succ i =>
          have htail := ih hget
          unfold placeOf at htail ⊢
          cases hhead : keep head with
          | true => simpa [hhead] using htail
          | false => simpa [hhead] using htail

/-- What is not kept may change unseen. -/
theorem filter_set_of_not_keep (hget : l[i]? = some a) (hkeep : keep a = false)
    (hkeep' : keep b = false) : (l.set i b).filter keep = l.filter keep := by
  induction l generalizing i with
  | nil => cases hget
  | cons head tail ih =>
      cases i with
      | zero =>
          cases hget
          simp [hkeep, hkeep']
      | succ i => simp [List.filter_cons, ih hget]

/-- Whoever is found by something that only those have who are kept has its place. -/
theorem findIdx?_filter (found : α → Bool) (hkept : ∀ a, found a = true → keep a = true)
    (l : List α) :
    (l.filter keep).findIdx? found = (l.findIdx? found).map (placeOf keep l) := by
  induction l with
  | nil => rfl
  | cons head tail ih =>
      cases hfound : found head with
      | true => simp [hkept head hfound, List.findIdx?_cons, hfound, placeOf]
      | false =>
          cases hhead : keep head with
          | true =>
              simp [hhead, List.findIdx?_cons, hfound, ih, Function.comp_def, placeOf]
          | false =>
              simp [hhead, List.findIdx?_cons, hfound, ih, Function.comp_def, placeOf]
              rfl

/-- Places do not change when something is put behind, or in the place of something like it. -/
theorem placeOf_eq_of_prefix {β : Type} (key : α → β) (keeps : β → Bool) {l' : List α}
    (hbegins : l.map key <+: l'.map key) (hle : i ≤ l.length) :
    placeOf (fun a => keeps (key a)) l' i = placeOf (fun a => keeps (key a)) l i := by
  obtain ⟨more, hmore⟩ := hbegins
  have hcount (l : List α) : (l.take i).countP (fun a => keeps (key a)) =
      ((l.map key).take i).countP keeps := by
    rw [← List.map_take, List.countP_map]
    rfl
  unfold placeOf
  rw [hcount, hcount, ← hmore, List.take_append_of_le_length (by simpa using hle)]

/-- What is put behind, with nothing in it that is kept, does not add to what is kept. -/
theorem exists_getElem?_iff_of_prefix {β : Type} (key : α → β) (keeps : β → Bool) {l' : List α}
    (hbegins : l.map key <+: l'.map key)
    (hsame : l'.filter (fun a => keeps (key a)) = l.filter fun a => keeps (key a)) (i : Nat) :
    (∃ a, l'[i]? = some a ∧ keeps (key a) = true) ↔ ∃ a, l[i]? = some a ∧ keeps (key a) = true := by
  obtain ⟨more, hmore⟩ := hbegins
  have hkeys (l : List α) : (l.map key).filter keeps = (l.filter fun a => keeps (key a)).map key :=
    List.filter_map
  -- As much is kept as before, so nothing is kept of what is behind.
  have hnone : more.filter keeps = [] := by
    have hboth := hkeys l'
    rw [hsame, ← hkeys, ← hmore, List.filter_append] at hboth
    exact List.append_right_eq_self.mp hboth
  have hlist (l : List α) : (∃ a, l[i]? = some a ∧ keeps (key a) = true) ↔
      ∃ b, (l.map key)[i]? = some b ∧ keeps b = true := by
    simp [List.getElem?_map]
  rw [hlist, hlist, ← hmore, List.getElem?_append]
  split
  · rfl
  next hbehind =>
    constructor
    · rintro ⟨b, hb, hkept⟩
      have hmem : b ∈ more.filter keeps := List.mem_filter.mpr ⟨List.mem_of_getElem? hb, hkept⟩
      rw [hnone] at hmem
      cases hmem
    · rintro ⟨b, hb, _⟩
      exact absurd (List.getElem?_eq_some_iff.mp hb).1 hbehind

end

/-! ## Parts -/

/-- What is registered of the tunnel with this number. -/
def Registry.about (r : Registry) (number : Nat) : Registry :=
  ⟨r.entries.filter (·.tunnel = number)⟩

/-- The tunnels, of which nothing is known but the one with this number and the identities of the
others. -/
def Tunnel.onlyAt (number : Nat) (tunnels : List Tunnel) : List Tunnel :=
  tunnels.mapIdx fun other t => if other = number then t else { identity := t.identity }

/-- The number that a stream has among those of the tunnel with this number. -/
def Stream.placeOn (number : Nat) (streams : List Stream) (j : Nat) : Nat :=
  placeOf (·.tunnel = number) streams j

/-- The body with the number that its stream has among those of a tunnel. -/
def Body.within (number : Nat) (streams : List Stream) : Body → Body
  | .empty => .empty
  | .text bytes => .text bytes
  | .stream j => .stream (Stream.placeOn number streams j)

def Call.within (number : Nat) (streams : List Stream) (c : Call) : Call :=
  { c with body := c.body.map (Body.within number streams) }

/-- A task for a request that is about the tunnel with this number. -/
def Task.IsAbout (number : Nat) : Task → Prop
  | .handle other _ _ => other = number
  | .readBody _ => True
  | .acquire _ _ | .readSome _ _ | .readInstruction _ | .write _ _ _ | .flush _ | .shutdown _
  | .close _ | .sweep _ | .watch _ => False

/-- The call makes a request, which is about the tunnel with this number, and nothing else. -/
structure Call.IsAbout (number : Nat) (streams : List Stream) (c : Call) : Prop where
  task : ∀ task, c.task = some task → task.IsAbout number
  readerHold : c.readerHold = none
  writerHold : c.writerHold = none
  body : ∀ j, c.body = some (.stream j) → ∃ s, streams[j]? = some s ∧ s.tunnel = number

/-- Whatever is registered is so under the identity of its tunnel. -/
def Registry.IsProper (r : Registry) (tunnels : List Tunnel) : Prop :=
  ∀ e ∈ r.entries, ∃ t, tunnels[e.tunnel]? = some t ∧ t.identity.text = e.identity

namespace Hub

/-- The tunnels have different identities and are registered under these, and every call is about
no tunnel but its own. Which tunnel that is is told by the name of the call; calls that make no
requests have none. -/
structure IsParted (own : String → Option Nat) (h : Hub) : Prop where
  distinct : (h.tunnels.map (·.identity)).Nodup
  proper : h.registry.IsProper h.tunnels
  calls : ∀ c ∈ h.calls, ∀ number, own c.name = some number → c.IsAbout number h.streams

/-- The calls that are about a tunnel, or those that are about none. -/
def callsOf (own : String → Option Nat) (about : Option Nat) (calls : List Call) : List Call :=
  calls.filter (own ·.name = about)

/-- The part of a hub that is about the tunnel with this number. -/
def part (own : String → Option Nat) (number : Nat) (h : Hub) : Hub where
  clock := h.clock
  now := h.now
  registry := h.registry.about number
  tunnels := Tunnel.onlyAt number h.tunnels
  streams := h.streams.filter (·.tunnel = number)
  calls := (callsOf own (some number) h.calls).map (Call.within number h.streams)

end Hub

/-! ## What changes about one tunnel -/

section

variable {number other : Nat} {tunnels after : List Tunnel} {t t' : Tunnel}

/-- No tunnel but the one with this number changes, and no identity does. -/
structure Tunnel.ChangeAt (number : Nat) (tunnels after : List Tunnel) : Prop where
  identities : after.map (·.identity) = tunnels.map (·.identity)
  others : ∀ other, other ≠ number → after[other]? = tunnels[other]?

theorem Tunnel.changeAt_refl (number : Nat) (tunnels : List Tunnel) :
    Tunnel.ChangeAt number tunnels tunnels :=
  ⟨rfl, fun _ _ => rfl⟩

theorem Tunnel.changeAt_set (ht : tunnels[number]? = some t)
    (hidentity : t'.identity = t.identity) :
    Tunnel.ChangeAt number tunnels (tunnels.set number t') where
  identities := Hub.map_set_of_eq ht hidentity
  others _ hne := List.getElem?_set_ne (Ne.symm hne)

theorem Tunnel.changeAt_modify {f : Tunnel → Tunnel} (hf : ∀ t, (f t).identity = t.identity)
    (number : Nat) (tunnels : List Tunnel) :
    Tunnel.ChangeAt number tunnels (tunnels.modify number f) := by
  cases ht : tunnels[number]? with
  | none =>
      rw [List.modify_eq_self (List.getElem?_eq_none_iff.mp ht)]
      exact changeAt_refl number tunnels
  | some t =>
      rw [modify_eq_set_of_getElem? f ht]
      exact changeAt_set ht (hf t)

/-- Of all other tunnels only the identities are left. -/
theorem Tunnel.getElem?_onlyAt (number : Nat) (tunnels : List Tunnel) (n : Nat) :
    (onlyAt number tunnels)[n]? =
      if n = number then tunnels[n]? else tunnels[n]?.map fun t => { identity := t.identity } := by
  unfold onlyAt
  rw [List.getElem?_mapIdx]
  split
  · exact Option.map_id'
  · rfl

theorem Tunnel.getElem?_onlyAt_self (number : Nat) (tunnels : List Tunnel) :
    (onlyAt number tunnels)[number]? = tunnels[number]? := by
  rw [getElem?_onlyAt, if_pos rfl]

theorem Tunnel.onlyAt_set (number : Nat) (tunnels : List Tunnel) (t : Tunnel) :
    onlyAt number (tunnels.set number t) = (onlyAt number tunnels).set number t := by
  refine List.ext_getElem? fun n => ?_
  rw [getElem?_onlyAt]
  by_cases hself : n = number
  · subst hself
    rw [if_pos rfl, List.getElem?_set_self', List.getElem?_set_self', getElem?_onlyAt_self]
  · rw [if_neg hself, List.getElem?_set_ne (Ne.symm hself), List.getElem?_set_ne (Ne.symm hself),
      getElem?_onlyAt, if_neg hself]

theorem Tunnel.onlyAt_modify (number : Nat) (tunnels : List Tunnel) (f : Tunnel → Tunnel) :
    onlyAt number (tunnels.modify number f) = (onlyAt number tunnels).modify number f := by
  cases ht : tunnels[number]? with
  | none =>
      have hnone : (onlyAt number tunnels)[number]? = none := by rw [getElem?_onlyAt_self, ht]
      rw [List.modify_eq_self (List.getElem?_eq_none_iff.mp ht),
        List.modify_eq_self (List.getElem?_eq_none_iff.mp hnone)]
  | some t =>
      have hsome : (onlyAt number tunnels)[number]? = some t := by rw [getElem?_onlyAt_self, ht]
      rw [modify_eq_set_of_getElem? f ht, modify_eq_set_of_getElem? f hsome, onlyAt_set]

/-- What changes about one tunnel does not show at another. -/
theorem Tunnel.ChangeAt.onlyAt_eq (hchange : Tunnel.ChangeAt number tunnels after)
    (hne : other ≠ number) : onlyAt other after = onlyAt other tunnels := by
  refine List.ext_getElem? fun n => ?_
  rw [getElem?_onlyAt, getElem?_onlyAt]
  by_cases hself : n = other
  · rw [if_pos hself, if_pos hself, hself, hchange.others other hne]
  · -- Of other tunnels only the identity is seen, and that does not change.
    have hidentity := congrArg (·[n]?) hchange.identities
    simp only [List.getElem?_map] at hidentity
    have hblank := congrArg (Option.map fun i => ({ identity := i } : Tunnel)) hidentity
    rw [Option.map_map, Option.map_map] at hblank
    rw [if_neg hself, if_neg hself]
    exact hblank

theorem Tunnel.ChangeAt.trans (hfirst : Tunnel.ChangeAt number tunnels after) {last : List Tunnel}
    (hsecond : Tunnel.ChangeAt number after last) : Tunnel.ChangeAt number tunnels last where
  identities := hsecond.identities.trans hfirst.identities
  others other hne := (hsecond.others other hne).trans (hfirst.others other hne)

end

/-! ## What changes in the registry -/

namespace Registry

variable {number other now : Nat} {tunnels after : List Tunnel} {t : Tunnel} {r r' : Registry}
  {identity : String}

/-- Nothing changes but what is registered of the tunnel with this number, and everything stays
registered under the identity of its tunnel. -/
structure ChangeAt (number : Nat) (tunnels : List Tunnel) (r after : Registry) : Prop where
  others : ∀ other, other ≠ number → after.about other = r.about other
  proper : after.IsProper tunnels

theorem changeAt_refl (number : Nat) (hproper : r.IsProper tunnels) : r.ChangeAt number tunnels r :=
  ⟨fun _ _ => rfl, hproper⟩

/-- Entries under an identity of the one tunnel are not about another. -/
theorem Reserves.ne_of_tunnel (hreserves : r.Reserves identity number) (hne : other ≠ number)
    {e : Entry} (he : e ∈ r.entries) (htunnel : e.tunnel = other) : e.identity ≠ identity := by
  intro hidentity
  exact hne (htunnel.symm.trans (hreserves e he hidentity))

theorem about_erase (r : Registry) (identity : String) (number : Nat) :
    (r.erase identity).about number = (r.about number).erase identity := by
  simp only [about, erase, List.filter_filter, Bool.and_comm]

theorem about_touch (r : Registry) (identity : String) (now number : Nat) :
    (r.touch identity now).about number = (r.about number).touch identity now := by
  have htunnel (e : Entry) :
      (if e.identity = identity then { e with lastUsed := now } else e).tunnel = e.tunnel := by
    split <;> rfl
  simp only [about, touch, List.filter_map, Function.comp_def, htunnel]

theorem about_put_self (r : Registry) (identity : String) (number now : Nat) :
    (r.put identity number now).about number = (r.about number).put identity number now := by
  have herase := r.about_erase identity number
  unfold put
  rw [← herase]
  simp [about]

theorem IsProper.erase (hproper : r.IsProper tunnels) (identity : String) :
    (r.erase identity).IsProper tunnels :=
  fun e he => hproper e (List.mem_of_mem_filter he)

/-- Taking an identity out that is reserved to a tunnel concerns no other tunnel. -/
theorem changeAt_erase (hproper : r.IsProper tunnels) (hreserves : r.Reserves identity number) :
    r.ChangeAt number tunnels (r.erase identity) where
  others other hne := by
    rw [about_erase]
    refine congrArg Registry.mk (List.filter_eq_self.mpr fun e he => ?_)
    obtain ⟨hentry, htunnel⟩ := List.mem_filter.mp he
    exact decide_eq_true (hreserves.ne_of_tunnel hne hentry (of_decide_eq_true htunnel))
  proper := hproper.erase identity

theorem IsProper.touch (hproper : r.IsProper tunnels) (identity : String) (now : Nat) :
    (r.touch identity now).IsProper tunnels := by
  intro e he
  obtain ⟨before, hbefore, rfl⟩ := List.mem_map.mp he
  obtain ⟨t, ht, hidentity⟩ := hproper before hbefore
  refine ⟨t, ?_, ?_⟩ <;> split <;> assumption

/-- Nor does using it. -/
theorem changeAt_touch (hproper : r.IsProper tunnels)
    (hreserves : r.Reserves identity number) (now : Nat) :
    r.ChangeAt number tunnels (r.touch identity now) where
  others other hne := by
    rw [about_touch]
    refine congrArg Registry.mk ((List.map_congr_left fun e he => ?_).trans (List.map_id _))
    obtain ⟨hentry, htunnel⟩ := List.mem_filter.mp he
    exact if_neg (hreserves.ne_of_tunnel hne hentry (of_decide_eq_true htunnel))
  proper := hproper.touch identity now

theorem IsProper.put (hproper : r.IsProper tunnels) (ht : tunnels[number]? = some t) (now : Nat) :
    (r.put t.identity.text number now).IsProper tunnels := by
  intro e he
  rcases List.mem_append.mp he with hbefore | hnew
  · exact hproper.erase t.identity.text e hbefore
  · rw [List.mem_singleton.mp hnew]
    exact ⟨t, ht, rfl⟩

/-- Nor does registering the tunnel itself. -/
theorem changeAt_put (hproper : r.IsProper tunnels) (ht : tunnels[number]? = some t)
    (hreserves : r.Reserves t.identity.text number) (now : Nat) :
    r.ChangeAt number tunnels (r.put t.identity.text number now) where
  others other hne := by
    have herase := (changeAt_erase hproper hreserves).others other hne
    rw [← herase]
    simp [about, put, Ne.symm hne]
  proper := hproper.put ht now

/-- Only the identities of the tunnels count. -/
theorem IsProper.congr (hproper : r.IsProper tunnels)
    (hsame : after.map (·.identity) = tunnels.map (·.identity)) : r.IsProper after := by
  intro e he
  obtain ⟨t, ht, hidentity⟩ := hproper e he
  have hthere := congrArg (·[e.tunnel]?) hsame
  simp only [List.getElem?_map, ht, Option.map_some] at hthere
  obtain ⟨t', ht', heq⟩ := Option.map_eq_some_iff.mp hthere
  exact ⟨t', ht', by rw [heq, hidentity]⟩

/-- What is found under an identity of one tunnel is found in what is registered of it. -/
theorem find?_about (hreserves : r.Reserves identity number) :
    (r.about number).find? identity = r.find? identity := by
  unfold find? about
  rw [List.find?_filter]
  refine congrArg _ (List.find?_congr fun e he => ?_)
  by_cases hidentity : e.identity = identity
  · simp [hidentity, hreserves e he hidentity]
  · simp [hidentity]

end Registry

/-! ## What changes in streams -/

namespace Stream

variable {number other j : Nat} {streams after : List Stream} {s s' : Stream}

/-- No stream changes but those of the tunnel with this number, and none gets another number or
another tunnel. -/
structure ChangeAt (number : Nat) (streams after : List Stream) : Prop where
  others : ∀ other, other ≠ number →
    after.filter (·.tunnel = other) = streams.filter (·.tunnel = other)
  numbering : streams.map (·.tunnel) <+: after.map (·.tunnel)

theorem changeAt_refl (number : Nat) (streams : List Stream) : ChangeAt number streams streams :=
  ⟨fun _ _ => rfl, List.prefix_rfl⟩

theorem changeAt_set (hs : streams[j]? = some s) (htunnel : s.tunnel = number)
    (hsame : s'.tunnel = s.tunnel) : ChangeAt number streams (streams.set j s') where
  others other hne :=
    filter_set_of_not_keep hs (decide_eq_false fun heq => hne (heq.symm.trans htunnel))
      (decide_eq_false fun heq => hne (heq.symm.trans (hsame.trans htunnel)))
  numbering := ⟨[], by rw [List.append_nil, Hub.map_set_of_eq hs hsame]⟩

theorem changeAt_modify {f : Stream → Stream} (hf : ∀ s, (f s).tunnel = s.tunnel)
    (hs : streams[j]? = some s) (htunnel : s.tunnel = number) :
    ChangeAt number streams (streams.modify j f) := by
  rw [modify_eq_set_of_getElem? f hs]
  exact changeAt_set hs htunnel (hf s)

theorem changeAt_append (streams : List Stream) (htunnel : s.tunnel = number) :
    ChangeAt number streams (streams ++ [s]) where
  others other hne := by simp [htunnel, Ne.symm hne]
  numbering := by
    rw [List.map_append]
    exact List.prefix_append _ _

/-- Streams of one tunnel keep their places among their own when others start. -/
theorem ChangeAt.placeOn_eq (hchange : ChangeAt number streams after) (hle : j ≤ streams.length)
    (other : Nat) : placeOn other after j = placeOn other streams j :=
  placeOf_eq_of_prefix Stream.tunnel (fun n => decide (n = other)) hchange.numbering hle

/-- Streams keep their tunnels. -/
theorem exists_of_prefix (hbegins : streams.map (·.tunnel) <+: after.map (·.tunnel))
    (hs : streams[j]? = some s) : ∃ s', after[j]? = some s' ∧ s'.tunnel = s.tunnel := by
  obtain ⟨more, hmore⟩ := hbegins
  have hlt : j < (streams.map (·.tunnel)).length := by
    rw [List.length_map]
    exact (List.getElem?_eq_some_iff.mp hs).1
  have htunnel := congrArg (·[j]?) hmore
  simp only [List.getElem?_append_left hlt, List.getElem?_map, hs, Option.map_some] at htunnel
  exact Option.map_eq_some_iff.mp htunnel.symm

end Stream

/-! ## What changes in calls -/

namespace Call

variable {number other i : Nat} {streams after : List Stream} {c c' : Call}

theorem IsAbout.congr (habout : c.IsAbout number streams)
    (hbegins : streams.map (·.tunnel) <+: after.map (·.tunnel)) : c.IsAbout number after where
  task := habout.task
  readerHold := habout.readerHold
  writerHold := habout.writerHold
  body j hbody := by
    obtain ⟨s, hs, htunnel⟩ := habout.body j hbody
    obtain ⟨s', hs', hsame⟩ := Stream.exists_of_prefix hbegins hs
    exact ⟨s', hs', hsame.trans htunnel⟩

/-- The numbers of streams stay, so what a call shows of its stream does. -/
theorem IsAbout.within_eq (habout : c.IsAbout other streams)
    (hchange : Stream.ChangeAt number streams after) (n : Nat) :
    c.within n after = c.within n streams := by
  have hbody : c.body.map (Body.within n after) = c.body.map (Body.within n streams) := by
    cases hbody : c.body with
    | none => rfl
    | some body =>
        cases body with
        | empty => rfl
        | text bytes => rfl
        | stream j =>
            obtain ⟨s, hs, _⟩ := habout.body j hbody
            have hle : j ≤ streams.length := (List.getElem?_eq_some_iff.mp hs).1.le
            simp only [Option.map_some, Body.within, hchange.placeOn_eq hle]
  rw [within, within, hbody]

/-- The call has just been made by its name. -/
theorem isAbout_new (name : String) (number : Nat) (streams : List Stream) :
    Call.IsAbout number streams { name } :=
  ⟨by rintro _ ⟨⟩, rfl, rfl, by rintro _ ⟨⟩⟩

end Call

namespace Hub

variable {own : String → Option Nat} {number other i : Nat} {h next : Hub} {c c' : Call}
  {calls after : List Call} {streams : List Stream}

/-- No calls change but those that are about the tunnel with this number, and these stay so. None
gets another number or another name. -/
structure CallsChangeAt (own : String → Option Nat) (number : Nat) (streams : List Stream)
    (calls after : List Call) : Prop where
  numbering : calls.map (·.name) <+: after.map (·.name)
  others : ∀ about, about ≠ some number → callsOf own about after = callsOf own about calls
  about : ∀ c ∈ after, own c.name = some number → c.IsAbout number streams

theorem callsChangeAt_refl
    (habout : ∀ c ∈ calls, own c.name = some number → c.IsAbout number streams) :
    CallsChangeAt own number streams calls calls :=
  ⟨List.prefix_rfl, fun _ _ => rfl, habout⟩

/-- A call of the tunnel may change. -/
theorem callsChangeAt_set
    (habout : ∀ c ∈ calls, own c.name = some number → c.IsAbout number streams)
    (hc : calls[i]? = some c) (hown : own c.name = some number) (hname : c'.name = c.name)
    (hafter : c'.IsAbout number streams) :
    CallsChangeAt own number streams calls (calls.set i c') where
  numbering := ⟨[], by rw [List.append_nil, map_set_of_eq hc hname]⟩
  others about hne :=
    filter_set_of_not_keep hc (decide_eq_false fun heq => hne (heq.symm.trans hown))
      (decide_eq_false fun heq => hne (heq.symm.trans (by rw [hname, hown])))
  about other hother hof := by
    rcases List.mem_or_eq_of_mem_set hother with hbefore | rfl
    · exact habout other hbefore hof
    · exact hafter

/-- So may a new one come. -/
theorem callsChangeAt_append
    (habout : ∀ c ∈ calls, own c.name = some number → c.IsAbout number streams)
    (hown : own c.name = some number) (hafter : c.IsAbout number streams) :
    CallsChangeAt own number streams calls (calls ++ [c]) where
  numbering := by
    rw [List.map_append]
    exact List.prefix_append _ _
  others about hne := by simp [callsOf, hown, Ne.symm hne]
  about other hother hof := by
    rcases List.mem_append.mp hother with hbefore | hnew
    · exact habout other hbefore hof
    · rw [List.mem_singleton.mp hnew]
      exact hafter

/-! ## What changes in a hub -/

/-- Nothing changes but what is about the tunnel with this number. -/
structure ChangesAt (own : String → Option Nat) (number : Nat) (h next : Hub) : Prop where
  clock : next.clock = h.clock
  now : next.now = h.now
  sweepers : next.sweepers = h.sweepers
  registry : h.registry.ChangeAt number h.tunnels next.registry
  tunnels : Tunnel.ChangeAt number h.tunnels next.tunnels
  streams : Stream.ChangeAt number h.streams next.streams
  calls : CallsChangeAt own number next.streams h.calls next.calls

/-- Changes about one tunnel one after the other are one such change. -/
theorem ChangesAt.trans {last : Hub} (hfirst : h.ChangesAt own number next)
    (hsecond : next.ChangesAt own number last) : h.ChangesAt own number last where
  clock := hsecond.clock.trans hfirst.clock
  now := hsecond.now.trans hfirst.now
  sweepers := hsecond.sweepers.trans hfirst.sweepers
  registry :=
    { others := fun other hne =>
        (hsecond.registry.others other hne).trans (hfirst.registry.others other hne)
      proper := hsecond.registry.proper.congr hfirst.tunnels.identities.symm }
  tunnels := hfirst.tunnels.trans hsecond.tunnels
  streams :=
    { others := fun other hne =>
        (hsecond.streams.others other hne).trans (hfirst.streams.others other hne)
      numbering := hfirst.streams.numbering.trans hsecond.streams.numbering }
  calls :=
    { numbering := hfirst.calls.numbering.trans hsecond.calls.numbering
      others := fun about hne =>
        (hsecond.calls.others about hne).trans (hfirst.calls.others about hne)
      about := hsecond.calls.about }

theorem IsParted.changesAt_refl (hparted : h.IsParted own) (number : Nat) :
    h.ChangesAt own number h where
  clock := rfl
  now := rfl
  sweepers := rfl
  registry := Registry.changeAt_refl number hparted.proper
  tunnels := Tunnel.changeAt_refl number h.tunnels
  streams := Stream.changeAt_refl number h.streams
  calls := callsChangeAt_refl fun c hc hown => hparted.calls c hc number hown

/-- What is done about one tunnel keeps apart what is about each. -/
theorem IsParted.of_changesAt (hparted : h.IsParted own) (hchanges : h.ChangesAt own number next) :
    next.IsParted own where
  distinct := by
    rw [hchanges.tunnels.identities]
    exact hparted.distinct
  proper := hchanges.registry.proper.congr hchanges.tunnels.identities
  calls c hc other hown := by
    by_cases hself : other = number
    · subst hself
      exact hchanges.calls.about c hc hown
    · have hmem : c ∈ callsOf own (some other) next.calls :=
        List.mem_filter.mpr ⟨hc, decide_eq_true hown⟩
      rw [hchanges.calls.others (some other) (by simpa using hself)] at hmem
      have hbefore := hparted.calls c (List.mem_of_mem_filter hmem) other hown
      exact hbefore.congr hchanges.streams.numbering

theorem IsParted.within_eq (hparted : h.IsParted own) {after : List Stream}
    (hchange : Stream.ChangeAt number h.streams after) (n : Nat) :
    (callsOf own (some n) h.calls).map (Call.within n after) =
      (callsOf own (some n) h.calls).map (Call.within n h.streams) := by
  refine List.map_congr_left fun c hc => ?_
  obtain ⟨hcall, hown⟩ := List.mem_filter.mp hc
  exact (hparted.calls c hcall n (of_decide_eq_true hown)).within_eq hchange n

/-- What is done about one tunnel leaves the part of every other as it is. -/
theorem ChangesAt.part_eq (hchanges : h.ChangesAt own number next) (hparted : h.IsParted own)
    (hne : other ≠ number) : next.part own other = h.part own other := by
  have hcalls := hchanges.calls.others (some other) (by simpa using hne)
  have hwithin := hparted.within_eq hchanges.streams other
  unfold part
  rw [hchanges.clock, hchanges.now, hchanges.registry.others other hne,
    hchanges.tunnels.onlyAt_eq hne, hchanges.streams.others other hne, hcalls, hwithin]

/-! ## Identities that are of one tunnel -/

/-- Tunnels with one identity are one tunnel. -/
theorem IsParted.eq_of_identity (hparted : h.IsParted own) {t t' : Tunnel}
    (ht : h.tunnels[number]? = some t) (ht' : h.tunnels[other]? = some t')
    (hsame : t.identity = t'.identity) : number = other := by
  obtain ⟨hlt, _⟩ := List.getElem?_eq_some_iff.mp ht
  refine (List.getElem?_inj (by simpa using hlt) hparted.distinct).mp ?_
  rw [List.getElem?_map, List.getElem?_map, ht, ht', Option.map_some, Option.map_some, hsame]

/-- In a parted hub the identity of a tunnel is reserved to it. -/
theorem IsParted.reserves (hparted : h.IsParted own) {t : Tunnel}
    (ht : h.tunnels[number]? = some t) : h.registry.Reserves t.identity.text number := by
  intro e he hidentity
  obtain ⟨t', ht', hsame⟩ := hparted.proper e he
  exact hparted.eq_of_identity ht' ht (Identity.text_injective (hsame.trans hidentity))

end Hub

end LongPollTunnel

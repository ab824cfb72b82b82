import Mathlib.Data.List.Infix
import Mathlib.Data.List.TakeWhile

namespace ChityChat.PathResolve

variable {α : Type} [DecidableEq α] (sep dot : α)

def components (path : List α) : List (List α) := path.splitOn sep

def walk (dirs : List (List α)) (c : List α) : List (List α) :=
  if c = [] ∨ c = [dot] then dirs else if c = [dot, dot] then dirs.dropLast else dirs ++ [c]

def start (cwd : List (List α)) (path : List α) : List (List α) :=
  if path.head? = some sep then [] else cwd

def resolve (cwd : List (List α)) (path : List α) : List (List α) :=
  (components sep path).foldl (walk dot) (start sep cwd path)

def Inside (cwd : List (List α)) (root path : List α) : Prop :=
  resolve sep dot cwd root <+: resolve sep dot cwd path

instance (cwd : List (List α)) (root path : List α) : Decidable (Inside sep dot cwd root path) :=
  inferInstanceAs (Decidable (_ <+: _))

def Proper (c : List α) : Prop := c ≠ [] ∧ c ≠ [dot] ∧ c ≠ [dot, dot]

instance (c : List α) : Decidable (Proper dot c) := inferInstanceAs (Decidable (_ ∧ _))

def names (cs : List (List α)) : List (List α) := cs.filter (Proper dot)

theorem components_append (a b : List α) :
    ∃ rs r u us, components sep a = rs ++ [r] ∧ components sep b = u :: us ∧
      components sep (a ++ b) = rs ++ (r ++ u) :: us := by
  induction a with
  | nil =>
      obtain ⟨u, us, hu⟩ := List.exists_cons_of_ne_nil (List.splitOn_ne_nil sep b)
      exact ⟨[], [], u, us, List.splitOn_nil sep, hu, hu⟩
  | cons x a ih =>
      obtain ⟨rs, r, u, us, ha, hb, hab⟩ := ih
      simp only [components] at *
      by_cases hx : x = sep
      · refine ⟨[] :: rs, r, u, us, ?_, hb, ?_⟩
        · simp [List.splitOn_cons_eq_if_modifyHead, hx, ha]
        · simp [List.splitOn_cons_eq_if_modifyHead, hx, hab]
      · cases rs with
        | nil =>
            refine ⟨[], x :: r, u, us, ?_, hb, ?_⟩
            · simp [List.splitOn_cons_eq_if_modifyHead, hx, ha]
            · simp [List.splitOn_cons_eq_if_modifyHead, hx, hab]
        | cons s rs =>
            refine ⟨(x :: s) :: rs, r, u, us, ?_, hb, ?_⟩
            · simp [List.splitOn_cons_eq_if_modifyHead, hx, ha]
            · simp [List.splitOn_cons_eq_if_modifyHead, hx, hab]

theorem components_of_notMem {s : List α} (h : sep ∉ s) : components sep s = [s] :=
  List.splitOn_eq_singleton h

theorem components_sep (s t : List α) :
    components sep (s ++ sep :: t) = components sep s ++ components sep t :=
  List.splitOn_append_cons_self s t

theorem infix_of_mem_dropLast {c path : List α} (h : c ∈ (components sep path).dropLast) :
    c ++ [sep] <:+: path := by
  induction hn : path.length using Nat.strong_induction_on generalizing path with
  | _ n ih =>
      by_cases hsep : sep ∈ path
      · obtain ⟨s, t, rfl, hs⟩ := List.eq_append_cons_of_mem hsep
        have hne : components sep t ≠ [] := List.splitOn_ne_nil sep t
        rw [components_sep, components_of_notMem sep hs, List.singleton_append,
          List.dropLast_cons_of_ne_nil hne, List.mem_cons] at h
        rcases h with rfl | h
        · exact ⟨[], t, by simp⟩
        · have hlt : t.length < n := by
            rw [← hn, List.length_append, List.length_cons]
            omega
          obtain ⟨before, after, he⟩ := ih _ hlt h rfl
          exact ⟨s ++ sep :: before, after, by rw [← he]; simp⟩
      · rw [components_of_notMem sep hsep] at h
        simp at h

omit [DecidableEq α] in
theorem infix_of_append {needle s t : List α} (ht : sep ∉ t) (h : needle ++ [sep] <:+: s ++ t) :
    needle ++ [sep] <:+: s := by
  obtain ⟨before, after, he⟩ := h
  rcases List.append_eq_append_iff.mp he with ⟨more, hs, -⟩ | ⟨more, hs, hmore⟩
  · exact ⟨before, more, hs.symm⟩
  · cases hm : more.reverse with
    | nil =>
        rw [List.reverse_eq_nil_iff] at hm
        exact ⟨before, [], by rw [hm] at hs; rw [List.append_nil, hs, List.append_nil]⟩
    | cons c cs =>
        rw [List.reverse_eq_cons_iff] at hm
        rw [hm, ← List.append_assoc, ← List.append_assoc, List.append_singleton_inj] at hs
        exact absurd (by rw [hmore, hm, hs.2]; simp) ht

variable {sep dot}

theorem walk_proper {c : List α} (h : Proper dot c) (dirs : List (List α)) :
    walk dot dirs c = dirs ++ [c] := by
  simp [walk, h.1, h.2.1, h.2.2]

theorem walk_not_proper {c : List α} (h : ¬ Proper dot c) (hc : c ≠ [dot, dot])
    (dirs : List (List α)) : walk dot dirs c = dirs := by
  rw [walk, if_pos]
  by_contra hcon
  rw [not_or] at hcon
  exact h ⟨hcon.1, hcon.2, hc⟩

theorem foldl_walk_names {cs : List (List α)} (h : ∀ c ∈ cs, c ≠ [dot, dot])
    (dirs : List (List α)) : cs.foldl (walk dot) dirs = dirs ++ names dot cs := by
  induction cs generalizing dirs with
  | nil => simp [names]
  | cons c cs ih =>
      rw [List.forall_mem_cons] at h
      rw [List.foldl_cons, ih h.2, names, names]
      by_cases hp : Proper dot c
      · simp [walk_proper hp, hp]
      · simp [walk_not_proper hp h.1, hp]

theorem foldl_walk_climb {cs : List (List α)} (h : ∀ c ∈ cs.dropLast, c ≠ [dot, dot])
    (dirs : List (List α)) :
    cs.foldl (walk dot) dirs =
      if cs.getLast? = some [dot, dot] then (dirs ++ names dot cs).dropLast
      else dirs ++ names dot cs := by
  by_cases hlast : cs.getLast? = some [dot, dot]
  · obtain ⟨init, rfl⟩ := List.getLast?_eq_some_iff.mp hlast
    rw [List.dropLast_concat] at h
    rw [if_pos hlast, List.foldl_append, foldl_walk_names h]
    simp [walk, names, Proper]
  · rw [if_neg hlast]
    apply foldl_walk_names
    intro c hc he
    rcases List.eq_nil_or_concat cs with rfl | ⟨init, last, rfl⟩
    · simp at hc
    · rw [List.concat_eq_append] at h hlast hc
      rw [List.dropLast_concat] at h
      rcases List.mem_append.mp hc with hc | hc
      · exact h c hc he
      · rw [List.mem_singleton.mp hc] at he
        exact hlast (by rw [List.getLast?_concat, he])

def Stays (dot : α) (dirs : List (List α)) (last first : List α) (more : List (List α)) : Prop :=
  if first = [] ∨ last ++ first = [dot] then
    more.getLast? = some [dot, dot] → walk dot dirs last = [] ∨ names dot more ≠ []
  else if Proper dot last then False
  else if last ++ first = [dot, dot] then
    dirs = [] ∨ dirs.getLast?.toList <+:
      if more.getLast? = some [dot, dot] then (names dot more).dropLast else names dot more
  else True

instance (dirs : List (List α)) (last first : List α) (more : List (List α)) :
    Decidable (Stays dot dirs last first more) := inferInstanceAs (Decidable (ite _ _ _))

omit [DecidableEq α] in
theorem Proper.append {s t : List α} (h : Proper dot s) (ht : t ≠ []) : Proper dot (s ++ t) := by
  obtain ⟨c, t, rfl⟩ := List.exists_cons_of_ne_nil ht
  refine ⟨by simp, ?_, ?_⟩
  · intro he
    rcases List.append_eq_singleton_iff.mp he with ⟨hs, -⟩ | ⟨-, hnil⟩
    · exact h.1 hs
    · simp at hnil
  · intro he
    match s, h, he with
    | [], h, _ => exact h.1 rfl
    | [a], h, he => exact h.2.1 (by rw [(List.cons.inj he).1])
    | a :: b :: s, _, he => simp at he

omit [DecidableEq α] in
theorem prefix_dropLast_iff (dirs more : List (List α)) :
    dirs <+: (dirs ++ more).dropLast ↔ dirs = [] ∨ more ≠ [] := by
  by_cases hm : more = []
  · subst hm
    rw [List.append_nil]
    constructor
    · intro h
      left
      have hlen := h.length_le
      rw [List.length_dropLast] at hlen
      exact List.eq_nil_of_length_eq_zero (by omega)
    · rintro (rfl | h)
      · simp
      · exact absurd rfl h
  · rw [List.dropLast_append_of_ne_nil hm]
    simp [hm]

theorem prefix_walk {c : List α} (h : ¬ Proper dot c) (dirs : List (List α)) :
    walk dot dirs c <+: dirs := by
  by_cases hc : c = [dot, dot]
  · subst hc
    simp [walk, List.dropLast_prefix]
  · rw [walk_not_proper h hc]

theorem foldl_walk_entered {lead : List α} {more : List (List α)} (hlead : Proper dot lead)
    (hmore : ∀ c ∈ more.dropLast, c ≠ [dot, dot]) (dirs : List (List α)) :
    ∃ entered, entered <+: lead :: names dot more ∧
      more.foldl (walk dot) (walk dot dirs lead) = dirs ++ entered := by
  rw [foldl_walk_climb hmore, walk_proper hlead, List.append_assoc, List.singleton_append]
  split
  · refine ⟨(lead :: names dot more).dropLast, List.dropLast_prefix _, ?_⟩
    rw [List.dropLast_append_of_ne_nil (by simp)]
  · exact ⟨_, List.prefix_rfl, rfl⟩

omit [DecidableEq α] in
theorem prefix_climbed_iff (dirs more : List (List α)) (climbs : Prop) [Decidable climbs] :
    dirs <+: (if climbs then (dirs.dropLast ++ more).dropLast else dirs.dropLast ++ more) ↔
      dirs = [] ∨ dirs.getLast?.toList <+: if climbs then more.dropLast else more := by
  rcases List.eq_nil_or_concat dirs with rfl | ⟨init, b, rfl⟩
  · simp
  · rw [List.concat_eq_append, List.dropLast_concat, List.getLast?_concat]
    have hne : init ++ [b] ≠ [] := by simp
    by_cases hclimb : climbs
    · rw [if_pos hclimb, if_pos hclimb]
      by_cases hm : more = []
      · subst hm
        have hlong : ¬ init ++ [b] <+: init.dropLast := by
          intro h
          have := h.length_le
          simp at this
          omega
        simpa [hne] using hlong
      · rw [List.dropLast_append_of_ne_nil hm, List.prefix_append_right_inj]
        simp [hne]
    · rw [if_neg hclimb, if_neg hclimb, List.prefix_append_right_inj]
      simp [hne]

theorem prefix_stays_iff {dirs : List (List α)} {last first : List α} {more : List (List α)}
    (hmore : ∀ c ∈ more.dropLast, c ≠ [dot, dot]) :
    walk dot dirs last <+: more.foldl (walk dot) (walk dot dirs (last ++ first)) ↔
      Stays dot dirs last first more := by
  rw [Stays]
  by_cases hsame : first = [] ∨ last ++ first = [dot]
  · have hwalk : walk dot dirs (last ++ first) = walk dot dirs last := by
      rcases hsame with rfl | h
      · rw [List.append_nil]
      · rcases List.append_eq_singleton_iff.mp h with ⟨rfl, rfl⟩ | ⟨rfl, rfl⟩
        · simp [walk]
        · rfl
    rw [if_pos hsame, hwalk, foldl_walk_climb hmore]
    split
    · rename_i hclimb
      simp [hclimb, prefix_dropLast_iff]
    · rename_i hclimb
      simp [hclimb]
  · rw [if_neg hsame]
    rw [not_or] at hsame
    by_cases hlast : Proper dot last
    · obtain ⟨entered, hentered, he⟩ := foldl_walk_entered (hlast.append hsame.1) hmore dirs
      rw [if_pos hlast, iff_false, he, walk_proper hlast, List.prefix_append_right_inj]
      intro h
      have := (List.cons_prefix_cons.mp (h.trans hentered)).1
      exact hsame.1 (List.append_right_eq_self.mp this.symm)
    · rw [if_neg hlast]
      by_cases hdots : last ++ first = [dot, dot]
      · have hstay : walk dot dirs last = dirs := by
          apply walk_not_proper hlast
          rintro rfl
          exact hsame.1 (List.append_right_eq_self.mp hdots)
        have hclimb : walk dot dirs (last ++ first) = dirs.dropLast := by
          simp [hdots, walk]
        rw [if_pos hdots, foldl_walk_climb hmore, hstay, hclimb, prefix_climbed_iff]
      · have hlead : Proper dot (last ++ first) := by
          refine ⟨?_, hsame.2, hdots⟩
          intro he
          exact hsame.1 (List.append_eq_nil_iff.mp he).2
        obtain ⟨entered, -, he⟩ := foldl_walk_entered hlead hmore dirs
        rw [if_neg hdots, iff_true, he]
        exact (prefix_walk hlast dirs).trans (List.prefix_append _ _)

end ChityChat.PathResolve

import ChityChat.ServerHtInsert

namespace ChityChat.ServerHt

variable {V L : Type} {A : LoadFactor L} {ht : ServerGht V L} {key : Nat} {data : V}
  {e : Nat × V}

theorem mem_entries_of_chain (h : e ∈ (ghtChain ht key).entries) : e ∈ ht.entries := by
  rw [ghtChain, List.getD_eq_getElem?_getD] at h
  cases hc : ht.table[ghtHash ht key]? with
  | none =>
      rw [hc] at h
      cases h
  | some c =>
      rw [hc] at h
      exact List.mem_flatMap.mpr ⟨c, List.mem_of_getElem? hc, h⟩

theorem mem_entries_set {table : List (Chain V)} {i : Nat} {c : Chain V}
    (h : e ∈ (table.set i c).flatMap Chain.entries) :
    e ∈ table.flatMap Chain.entries ∨ e ∈ c.entries := by
  obtain ⟨d, hd, he⟩ := List.mem_flatMap.mp h
  rcases List.mem_or_eq_of_mem_set hd with hd | rfl
  · exact .inl (List.mem_flatMap.mpr ⟨d, hd, he⟩)
  · exact .inr he

theorem Chain.mem_insert {c c' : Chain V} (h : c.insert key data = some c') (he : e ∈ c'.entries) :
    e ∈ c.entries ∨ e = (key, data) := by
  rw [Chain.insert] at h
  split at h
  · cases h
  · split at h
    · rw [ghtLink_eq] at h
      split at h
      · cases h
      · cases h
        rw [Chain.entries, Chain.buckets, ← List.cons_append, bucketEntries_append] at he
        rcases List.mem_append.mp he with he | he
        · exact .inl he
        · exact .inr (List.mem_singleton.mp he)
    · next hdata =>
        cases h
        rw [Bool.not_eq_true, Option.isSome_eq_false_iff, Option.isNone_iff_eq_none] at hdata
        rw [Chain.entries, Chain.buckets, bucketEntries_cons_some rfl] at he
        rw [Chain.entries, Chain.buckets, bucketEntries_cons_none hdata]
        rcases List.mem_cons.mp he with he | he
        · exact .inr he
        · exact .inl he

theorem ghtInsert_entries (h : e ∈ (ghtInsert A ht key data).2.entries) :
    e ∈ ht.entries ∨ e = (key, data) := by
  rw [ghtInsert] at h
  split at h
  · exact .inl h
  · next c hc =>
      rcases mem_entries_set h with h | h
      · exact .inl h
      · exact (Chain.mem_insert hc h).imp_left mem_entries_of_chain

theorem ghtMove_entries {b : GhtBucket V} (h : e ∈ (ghtMove A ht b).entries) :
    e ∈ ht.entries ∨ e ∈ bucketEntries [b] := by
  revert h
  refine ghtMove_cases (P := fun ht' es => e ∈ ht'.entries → e ∈ ht.entries ∨ e ∈ es)
    (fun _ _ _ hp => hp) .inl ?_
  intro data _ h
  exact (ghtInsert_entries h).imp_right List.mem_singleton.mpr

theorem foldl_ghtMove_entries (bs : List (GhtBucket V)) (h : e ∈ (bs.foldl (ghtMove A) ht).entries) :
    e ∈ ht.entries ∨ e ∈ bucketEntries bs := by
  induction bs generalizing ht with
  | nil => exact .inl h
  | cons b bs ih =>
      rw [← List.singleton_append, bucketEntries_append, List.mem_append, ← or_assoc]
      exact (ih h).imp_left ghtMove_entries

theorem ghtRehash_entries (table : List (Chain V)) (h : e ∈ (ghtRehash A ht table).entries) :
    e ∈ ht.entries ∨ e ∈ table.flatMap Chain.entries := by
  induction table generalizing ht with
  | nil => exact .inl h
  | cons c table ih =>
      rw [List.flatMap_cons, List.mem_append, ← or_assoc]
      exact (ih h).imp_left (foldl_ghtMove_entries c.buckets)

theorem ghtResize_entries {n : Nat} (h : e ∈ (ghtResize A ht n).entries) : e ∈ ht.entries := by
  rw [ghtResize_eq] at h
  split at h
  · exact h
  · rcases ghtRehash_entries _ h with hcleared | hold
    · rw [cleared_entries] at hcleared
      cases hcleared
    · exact hold

theorem ghtCheckLoad_entries (h : e ∈ (ghtCheckLoad A ht).entries) : e ∈ ht.entries := by
  rw [ghtCheckLoad] at h
  split at h
  · exact ghtResize_entries h
  · split at h
    · exact ghtResize_entries h
    · exact h

theorem Chain.mem_delete {c c' : Chain V} (h : c.delete = some c') (he : e ∈ c'.entries) :
    e ∈ c.entries := by
  rw [Chain.delete] at h
  split at h
  · next b bs hnext =>
      obtain rfl := Option.some.inj h
      have hsame : e ∈ bucketEntries (b :: bs) := by
        rw [Chain.entries, Chain.buckets] at he
        dsimp only at he
        split at he <;> exact he
      rw [Chain.entries, Chain.buckets, hnext, ← List.singleton_append, bucketEntries_append]
      exact List.mem_append_right _ hsame
  · split at h
    · cases h
    · obtain rfl := Option.some.inj h
      cases he

theorem ghtDelBucket_entries {slot : Option Nat} {c : Chain V} (hc : ∀ e ∈ c.entries, slot ≠ none →
      e ∈ ht.entries) (h : e ∈ (ghtDelBucket A ht slot c).entries) : e ∈ ht.entries := by
  have hbefore := ghtCheckLoad_entries h
  cases slot with
  | none => exact hbefore
  | some i =>
      cases hdelete : c.delete with
      | none =>
          simp only [hdelete] at hbefore
          exact hbefore
      | some c' =>
          simp only [hdelete] at hbefore
          rcases mem_entries_set hbefore with hold | hnew
          · exact hold
          · exact hc e (Chain.mem_delete hdelete hnew) (Option.some_ne_none i)

theorem ghtFind_before {bs before : List (GhtBucket V)} {hit : Chain V}
    (h : ghtFind key bs = some (before, hit)) : before <+: bs := by
  induction bs generalizing before with
  | nil => cases h
  | cons b bs ih =>
      rw [ghtFind] at h
      split at h
      · cases h
        exact List.nil_prefix
      · obtain ⟨⟨before', hit'⟩, hfind, heq⟩ := Option.map_eq_some_iff.mp h
        obtain ⟨rfl, rfl⟩ := Prod.mk.inj heq
        exact List.cons_prefix_cons.mpr ⟨rfl, ih hfind⟩

theorem serverGhtDel_entries (h : e ∈ (serverGhtDel A ht key).2.entries) : e ∈ ht.entries := by
  unfold serverGhtDel at h
  dsimp only at h
  split at h
  · exact ghtDelBucket_entries (fun e he _ => mem_entries_of_chain he) h
  · split at h
    · next before hit hfind =>
        have hcut := ghtDelBucket_entries (fun e _ hslot => absurd rfl hslot) h
        rcases mem_entries_set hcut with hold | hchain
        · exact hold
        · obtain ⟨rest, hrest⟩ := ghtFind_before hfind
          apply mem_entries_of_chain
          rw [Chain.entries, Chain.buckets, ← hrest, ← List.cons_append, bucketEntries_append]
          exact List.mem_append_left _ hchain
    · exact h

end ChityChat.ServerHt

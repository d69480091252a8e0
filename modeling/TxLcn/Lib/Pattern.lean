import Mathlib.Data.List.Basic
import Mathlib.Data.List.Forall2
import Mathlib.Tactic.Common

/-!
# Patterns

A pattern is a list of items, each of which takes a number of elements that it
accepts. A text matches if the items take all of it, one after the other. The
numbers are tried from the largest one down by a greedy item, and from the
smallest one up by one that is not, and the first way that works is the match.

A match is a way to take the text apart, and there is one if there is such a way.
What the first item takes, if it is greedy, is as long as it can be.
-/

namespace TxLcn.Lib

universe u

variable {α : Type u}

structure Item (α : Type u) where
  accepts : α → Bool
  least : Nat := 1
  /-- No bound if `none`. -/
  most : Option Nat := some 1
  greedy : Bool := true

namespace Item

/-- Any number of elements. -/
def star (accepts : α → Bool) (greedy : Bool) : Item α :=
  { accepts, least := 0, most := none, greedy }

/-- One element or more. -/
def plus (accepts : α → Bool) : Item α := { accepts, most := none }

/-- That one element. -/
def literal [DecidableEq α] (a : α) : Item α := { accepts := fun b => a = b }

variable (item : Item α)

/-- The part is one that the item may take. -/
structure Takes (part : List α) : Prop where
  least : item.least ≤ part.length
  most : ∀ most ∈ item.most, part.length ≤ most
  accepts : ∀ a ∈ part, item.accepts a = true

/-- How many elements of the text it may take at the most. -/
def longest (text : List α) : Nat :=
  match item.most with
  | none => (text.takeWhile item.accepts).length
  | some most => min (text.takeWhile item.accepts).length most

/-- The numbers that are tried, in that order. -/
def counts (text : List α) : List Nat :=
  let counts := (List.range (item.longest text + 1)).filter fun n => item.least ≤ n
  if item.greedy then counts.reverse else counts

variable {item} {text part rest : List α} {n : Nat}

theorem mem_counts : n ∈ item.counts text ↔ item.least ≤ n ∧ n ≤ item.longest text := by
  have hmem : n ∈ (List.range (item.longest text + 1)).filter (fun n => item.least ≤ n)
      ↔ item.least ≤ n ∧ n ≤ item.longest text := by
    simp only [List.mem_filter, List.mem_range, decide_eq_true_eq]
    omega
  unfold counts
  dsimp only
  split
  · rw [List.mem_reverse, hmem]
  · exact hmem

/-- A greedy item tries the larger numbers first. -/
theorem counts_pairwise (text : List α) (h : item.greedy = true) :
    (item.counts text).Pairwise (· > ·) := by
  unfold counts
  dsimp only
  rw [if_pos h, List.pairwise_reverse]
  exact List.Pairwise.filter _ List.pairwise_lt_range

theorem length_le_takeWhile (rest : List α) (h : ∀ a ∈ part, item.accepts a = true) :
    part.length ≤ ((part ++ rest).takeWhile item.accepts).length := by
  rw [List.takeWhile_append_of_pos h, List.length_append]
  omega

/-- What is tried is what can be taken. -/
theorem takes_iff_mem_counts (rest : List α) :
    item.Takes part ↔ part.length ∈ item.counts (part ++ rest) := by
  rw [mem_counts]
  constructor
  · intro h
    refine ⟨h.least, ?_⟩
    have hle := length_le_takeWhile rest h.accepts
    unfold longest
    split
    · exact hle
    · rename_i most hmost
      have hmost' := h.most most hmost
      omega
  · intro ⟨hleast, hlongest⟩
    have hle : part.length ≤ ((part ++ rest).takeWhile item.accepts).length ∧
        ∀ most ∈ item.most, part.length ≤ most := by
      unfold longest at hlongest
      split at hlongest
      · rename_i hnone
        exact ⟨hlongest, by simp [hnone]⟩
      · rename_i most hmost
        refine ⟨by omega, ?_⟩
        intro most' hmost'
        rw [hmost] at hmost'
        cases hmost'
        omega
    refine ⟨hleast, hle.2, ?_⟩
    -- the part is a prefix of what the item accepts
    intro a ha
    have hsub : part <+: (part ++ rest).takeWhile item.accepts :=
      List.prefix_of_prefix_length_le (List.prefix_append part rest)
        (List.takeWhile_prefix item.accepts) hle.1
    exact List.all_eq_true.mp List.all_takeWhile a (hsub.subset ha)

end Item

variable {item : Item α} {items : List (Item α)} {text part rest : List α}
  {parts : List (List α)}

/-- What the items take, one after the other. -/
def matchAll : List (Item α) → List α → Option (List (List α))
  | [], text => if text.isEmpty then some [] else none
  | item :: items, text => (item.counts text).findSome? fun n =>
      (matchAll items (text.drop n)).map fun parts => text.take n :: parts

/-- The parts are ones that the items may take, one each. -/
abbrev Fits (items : List (Item α)) (parts : List (List α)) : Prop :=
  List.Forall₂ Item.Takes items parts

/-- A match takes the text apart. -/
theorem matchAll_sound (h : matchAll items text = some parts) :
    Fits items parts ∧ parts.flatten = text := by
  induction items generalizing text parts with
  | nil =>
      unfold matchAll at h
      split at h
      · rename_i hempty
        cases h
        exact ⟨.nil, (List.isEmpty_iff.mp hempty).symm⟩
      · cases h
  | cons item items ih =>
      obtain ⟨n, hn, hrest⟩ := List.exists_of_findSome?_eq_some h
      obtain ⟨parts', hparts', rfl⟩ := Option.map_eq_some_iff.mp hrest
      obtain ⟨hfits, hflatten⟩ := ih hparts'
      have hsplit : text.take n ++ text.drop n = text := List.take_append_drop n text
      have hlength : (text.take n).length = n := by
        have hlongest := (Item.mem_counts.mp hn).2
        have htake : (text.takeWhile item.accepts).length ≤ text.length :=
          (List.takeWhile_prefix item.accepts).length_le
        rw [List.length_take]
        unfold Item.longest at hlongest
        split at hlongest <;> omega
      refine ⟨.cons ?_ hfits, ?_⟩
      · rw [Item.takes_iff_mem_counts (text.drop n), hsplit, hlength]
        exact hn
      · rw [List.flatten_cons, hflatten, hsplit]

/-- A text that can be taken apart matches. -/
theorem matchAll_isSome (hfits : Fits items parts) (htext : parts.flatten = text) :
    (matchAll items text).isSome := by
  induction hfits generalizing text with
  | nil =>
      subst htext
      rfl
  | @cons item part items parts htakes hfits ih =>
      subst htext
      rw [List.flatten_cons]
      unfold matchAll
      rw [List.isSome_findSome?, List.any_eq_true]
      -- one of the numbers works, if not the first one that does
      refine ⟨part.length, (Item.takes_iff_mem_counts _).mp htakes, ?_⟩
      rw [Option.isSome_map, List.drop_left]
      exact ih rfl

/-- What a greedy item takes first is the longest that lets the others match. -/
theorem greedy_longest {part' : List α} {parts' : List (List α)} (hgreedy : item.greedy = true)
    (h : matchAll (item :: items) text = some (part :: parts))
    (hfits : Fits (item :: items) (part' :: parts'))
    (htext : (part' :: parts').flatten = text) : part'.length ≤ part.length := by
  cases hfits with
  | cons htakes hfits =>
  rw [List.flatten_cons] at htext
  subst htext
  have hpairwise := Item.counts_pairwise (part' ++ parts'.flatten) hgreedy
  have htried := (Item.takes_iff_mem_counts parts'.flatten).mp htakes
  have hworks : (matchAll items ((part' ++ parts'.flatten).drop part'.length)).isSome := by
    rw [List.drop_left]
    exact matchAll_isSome hfits rfl
  unfold matchAll at h
  obtain ⟨before, n, after, hcounts, hn, hfailed⟩ := List.findSome?_eq_some_iff.mp h
  obtain ⟨_, _, hpart⟩ := Option.map_eq_some_iff.mp hn
  cases hpart
  rw [hcounts] at hpairwise
  rcases List.mem_append.mp (hcounts ▸ htried) with hbefore | hafter
  · -- it would have worked before
    have hnone := hfailed _ hbefore
    rw [Option.map_eq_none_iff] at hnone
    rw [hnone] at hworks
    cases hworks
  · -- it is tried later, and the later numbers are smaller
    have hle : part'.length ≤ n := by
      rcases List.mem_cons.mp hafter with heq | hmem
      · omega
      · have hlater := (List.pairwise_append.mp hpairwise).2.1
        have hless := List.rel_of_pairwise_cons hlater hmem
        omega
    rw [List.length_take, List.length_append]
    omega

end TxLcn.Lib

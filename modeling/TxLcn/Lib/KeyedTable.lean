import Mathlib.Data.List.Nodup
import Mathlib.Logic.Embedding.Basic
import TxLcn.Lib.Session

/-!
# Tables with a key

A table is a list of rows, each under a key of its own, and a counter that keys
are drawn from: `auto` makes a key of a number. A number is drawn once. Rows are
chosen by a predicate on the key and the rest of the row, and a change that a
session makes is seen by it at once, whether or not it is durable.
-/

namespace TxLcn.Lib

universe u

variable {K V : Type u} {auto : ℕ ↪ K}

structure KeyedTable (auto : ℕ ↪ K) (V : Type u) where
  rows : List (K × V)
  next : ℕ
  nodup : (rows.map Prod.fst).Nodup
  fresh : ∀ n, auto n ∈ rows.map Prod.fst → n < next

/-- A change of a table. -/
inductive TableChange (K V : Type u) where
  | insert (values : List V)
  | update (chosen : K → V → Bool) (assign : K → V → V)
  | delete (chosen : K → V → Bool)

namespace KeyedTable

variable (T : KeyedTable auto V)

/-- The keys of the rows that are chosen, in the order of the table. -/
def selected (chosen : K → V → Bool) : List K :=
  (T.rows.filter fun row => chosen row.1 row.2).map Prod.fst

/-- The keys that the next `n` rows get. -/
def drawn (n : ℕ) : List K := (List.range' T.next n).map auto

def assigned (chosen : K → V → Bool) (assign : K → V → V) (row : K × V) : K × V :=
  if chosen row.1 row.2 then (row.1, assign row.1 row.2) else row

theorem assigned_fst (chosen : K → V → Bool) (assign : K → V → V) (row : K × V) :
    (assigned chosen assign row).1 = row.1 := by
  unfold assigned
  split <;> rfl

theorem map_assigned (chosen : K → V → Bool) (assign : K → V → V) (rows : List (K × V)) :
    (rows.map (assigned chosen assign)).map Prod.fst = rows.map Prod.fst := by
  rw [List.map_map]
  exact List.map_congr_left fun row _ => assigned_fst chosen assign row

/-- No row gets another key. -/
def update (chosen : K → V → Bool) (assign : K → V → V) : KeyedTable auto V where
  rows := T.rows.map (assigned chosen assign)
  next := T.next
  nodup := by
    rw [map_assigned]
    exact T.nodup
  fresh := by
    rw [map_assigned]
    exact T.fresh

def delete (chosen : K → V → Bool) : KeyedTable auto V where
  rows := T.rows.filter fun row => !chosen row.1 row.2
  next := T.next
  nodup := T.nodup.sublist (List.filter_sublist.map _)
  fresh := fun n hn => T.fresh n ((List.filter_sublist.map _).subset hn)

theorem mem_drawn {n : ℕ} {key : K} :
    key ∈ T.drawn n ↔ ∃ m, T.next ≤ m ∧ m < T.next + n ∧ auto m = key := by
  simp only [drawn, List.mem_map, List.mem_range'_1, and_assoc]

theorem map_zip_drawn (values : List V) :
    ((T.drawn values.length).zip values).map Prod.fst = T.drawn values.length :=
  List.map_fst_zip (by simp [drawn])

def insert (values : List V) : KeyedTable auto V where
  rows := T.rows ++ (T.drawn values.length).zip values
  next := T.next + values.length
  nodup := by
    rw [List.map_append, map_zip_drawn, List.nodup_append]
    refine ⟨T.nodup, (List.nodup_range').map auto.injective, ?_⟩
    rintro key hkey _ hdrawn rfl
    obtain ⟨m, hle, _, rfl⟩ := T.mem_drawn.mp hdrawn
    exact absurd (T.fresh m hkey) (Nat.not_lt.mpr hle)
  fresh := by
    intro n hn
    rw [List.map_append, map_zip_drawn, List.mem_append] at hn
    rcases hn with hn | hn
    · have hlt := T.fresh n hn
      omega
    · obtain ⟨m, _, hlt, heq⟩ := T.mem_drawn.mp hn
      rw [← auto.injective heq]
      exact hlt

def apply : TableChange K V → KeyedTable auto V
  | .insert values => T.insert values
  | .update chosen assign => T.update chosen assign
  | .delete chosen => T.delete chosen

/-- What has been deleted is not there to be chosen. -/
theorem selected_delete (chosen : K → V → Bool) : (T.delete chosen).selected chosen = [] := by
  unfold selected delete
  simp [List.filter_filter]

/-- Whatever else is chosen, it is not what has been deleted. -/
theorem not_mem_selected_delete {chosen chosen' : K → V → Bool} {key : K}
    (h : key ∈ T.selected chosen) : key ∉ (T.delete chosen).selected chosen' := by
  unfold selected at h
  obtain ⟨row, hrow, rfl⟩ := List.mem_map.mp h
  obtain ⟨hmem, hchosen⟩ := List.mem_filter.mp hrow
  intro hleft
  unfold selected delete at hleft
  obtain ⟨row', hrow', heq⟩ := List.mem_map.mp hleft
  obtain ⟨hmem', hkept⟩ := List.mem_filter.mp (List.mem_filter.mp hrow').1
  obtain rfl : row' = row := List.inj_on_of_nodup_map T.nodup hmem' hmem heq
  rw [hchosen] at hkept
  cases hkept

/-- A choice that an update does not touch is the same after it. -/
theorem selected_update {chosen chosen' : K → V → Bool} {assign : K → V → V}
    (h : ∀ key value, chosen key value = true →
      chosen' key (assign key value) = chosen' key value) :
    (T.update chosen assign).selected chosen' = T.selected chosen' := by
  have hchosen : (fun row : K × V => chosen' row.1 row.2) ∘ assigned chosen assign
      = fun row => chosen' row.1 row.2 := by
    funext row
    unfold Function.comp assigned
    split
    · exact h _ _ ‹_›
    · rfl
  have hfst : Prod.fst ∘ assigned chosen assign = Prod.fst := funext (assigned_fst chosen assign)
  unfold selected update
  rw [List.filter_map, List.map_map, hchosen, hfst]

end KeyedTable

/-- The table as a session sees it, which everybody else sees as `base` and what is durable. -/
def seen (base : KeyedTable auto V) (s : Session (TableChange K V)) : KeyedTable auto V :=
  (s.durable ++ s.uncommitted).foldl KeyedTable.apply base

variable {base : KeyedTable auto V} {s : Session (TableChange K V)}

/-- A session sees what it writes. -/
theorem seen_write (hopen : s.closed = false) (hclean : s.Clean)
    (changes : List (TableChange K V)) :
    seen base (s.write changes) = changes.foldl KeyedTable.apply (seen base s) := by
  unfold seen Session.write
  rw [if_neg (by simp [hopen])]
  split
  · rename_i hauto
    simp [hclean hauto, List.foldl_append]
  · simp [List.foldl_append]

/-- What is durable after a change of the flag has been seen before. -/
theorem seen_setAutoCommit (b : Bool) : seen base (s.setAutoCommit b) = seen base s := by
  unfold seen Session.setAutoCommit Session.commit
  split
  · rfl
  · split <;> simp

end TxLcn.Lib

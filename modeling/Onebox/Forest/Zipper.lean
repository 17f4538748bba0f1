import Mathlib.Data.List.Basic

/-!
# Ordered forests that are built from the left

A machine that opens elements, adds leaves and closes the innermost element builds an ordered forest
from the left. What it has built so far is a zipper: the content of the innermost open element and,
for each element that is open, what stands before it. Whatever is read off a forest from left to
right, every operation only adds to it at the end.
-/

/-- Ordered forests with labels at the nodes and at the leaves. -/
inductive Forest (α β : Type*)
  | nil
  | leaf (b : β) (rest : Forest α β)
  | node (a : α) (content rest : Forest α β)

namespace Forest

variable {α β τ : Type*}

def append : Forest α β → Forest α β → Forest α β
  | nil, g => g
  | leaf b rest, g => leaf b (rest.append g)
  | node a content rest, g => node a content (rest.append g)

/-- What is read where a node opens and closes, and at a leaf. -/
structure Reading (α β τ : Type*) where
  opening : α → List τ
  closing : α → List τ
  leaf : β → List τ

/-- A forest read from left to right. -/
def read (r : Reading α β τ) : Forest α β → List τ
  | nil => []
  | leaf b rest => r.leaf b ++ rest.read r
  | node a content rest => r.opening a ++ content.read r ++ r.closing a ++ rest.read r

theorem read_append (r : Reading α β τ) (f g : Forest α β) :
    (f.append g).read r = f.read r ++ g.read r := by
  induction f with
  | nil => rfl
  | leaf b rest ih => rw [append, read, read, ih, List.append_assoc]
  | node a content rest _ ih => simp only [append, read, ih, List.append_assoc]

/-! ## Zippers -/

/-- A forest with some nodes open: the content of the innermost one, and the open nodes, innermost
first, each with what stands before it. -/
structure Zipper (α β : Type*) where
  content : Forest α β
  path : List (Forest α β × α)

namespace Zipper

/-- Nothing is built. -/
def empty : Zipper α β := ⟨nil, []⟩

/-- The labels of the open nodes, innermost first. -/
def labels (z : Zipper α β) : List α := z.path.map Prod.snd

def addLeaf (z : Zipper α β) (b : β) : Zipper α β :=
  { z with content := z.content.append (.leaf b nil) }

/-- A node is opened. -/
def push (z : Zipper α β) (a : α) : Zipper α β := ⟨nil, (z.content, a) :: z.path⟩

/-- The innermost node is closed. -/
def pop (z : Zipper α β) : Zipper α β :=
  match z.path with
  | [] => z
  | (before, a) :: rest => ⟨before.append (.node a z.content nil), rest⟩

/-- All open nodes are closed. -/
def close (z : Zipper α β) : Forest α β :=
  z.path.foldl (fun content entry ↦ entry.1.append (.node entry.2 content nil)) z.content

/-- What stands before the content of the innermost node. -/
def readPath (r : Reading α β τ) : List (Forest α β × α) → List τ
  | [] => []
  | (before, a) :: rest => readPath r rest ++ before.read r ++ r.opening a

/-- What is built, read from left to right. -/
def read (r : Reading α β τ) (z : Zipper α β) : List τ := readPath r z.path ++ z.content.read r

variable (r : Reading α β τ) (z : Zipper α β)

@[simp] theorem read_empty : (empty : Zipper α β).read r = [] := rfl

@[simp] theorem labels_empty : (empty : Zipper α β).labels = [] := rfl

@[simp] theorem labels_addLeaf (b : β) : (z.addLeaf b).labels = z.labels := rfl

@[simp] theorem labels_push (a : α) : (z.push a).labels = a :: z.labels := rfl

theorem read_addLeaf (b : β) : (z.addLeaf b).read r = z.read r ++ r.leaf b := by
  rw [read, read, addLeaf, read_append, Forest.read, Forest.read, List.append_nil,
    List.append_assoc]

theorem read_push (a : α) : (z.push a).read r = z.read r ++ r.opening a := by
  rw [read, read, push, readPath, Forest.read, List.append_nil]

theorem labels_pop : z.pop.labels = z.labels.tail := by
  rw [pop, labels, labels]
  split
  · rename_i hpath
    rw [hpath]
    rfl
  · rename_i before a rest hpath
    rw [hpath]
    rfl

/-- Closing the innermost node. -/
theorem read_pop {a : α} {rest : List α} (h : z.labels = a :: rest) :
    z.pop.read r = z.read r ++ r.closing a := by
  obtain ⟨content, path⟩ := z
  cases path with
  | nil => cases h
  | cons entry path =>
    obtain ⟨before, a'⟩ := entry
    obtain rfl : a' = a := (List.cons.inj h).1
    simp only [pop, read, readPath, read_append, Forest.read, List.append_nil, List.append_assoc]

/-- Closing everything. -/
theorem read_close : z.close.read r = z.read r ++ z.labels.flatMap r.closing := by
  obtain ⟨content, path⟩ := z
  induction path generalizing content with
  | nil => simp [close, read, readPath, labels]
  | cons entry path ih =>
    let z : Zipper α β := ⟨content, entry :: path⟩
    have hpop : z.pop.read r = z.read r ++ r.closing entry.2 := read_pop r z rfl
    calc z.close.read r
        = z.pop.close.read r := rfl
      _ = z.pop.read r ++ z.pop.labels.flatMap r.closing := ih _
      _ = z.read r ++ z.labels.flatMap r.closing := by
        rw [hpop, List.append_assoc]
        rfl

end Zipper

end Forest

import Mathlib
import TextureFlow.Graph.Cycle

/-!
# The search finds a cycle exactly when there is one

The search is an explicit machine, so its proof has two halves. What one step keeps is `Sound`: the
grey nodes are those on the path, the path follows edges, what was looked at is black or comes next
on the path, and black nodes lie on no cycle and lead to black nodes only. What one step uses up is
`work`: a node counts once while it is a root, and once more with its successors until it is left.
Every step lowers it, whatever the state, so the bound on the steps is never reached.

* `Search.run_correct`: whatever a run answers is right, and it meets no node without a colour;
* `Search.run_ne_unfinished`: a run with more steps than work comes to an end.
-/

namespace TextureFlow

/-! ## Cycles of a relation -/

/-- No node can be reached from itself. -/
def Acyclic (r : NodeId → NodeId → Prop) : Prop :=
  ∀ v, ¬ Relation.TransGen r v v

/-- Different nodes, each with an edge to the next and the last with an edge to the first. -/
structure IsCycle (r : NodeId → NodeId → Prop) (nodes : List NodeId) : Prop where
  ne_nil : nodes ≠ []
  nodup : nodes.Nodup
  chain : nodes.IsChain r
  closed : ∀ first ∈ nodes.head?, ∀ last ∈ nodes.getLast?, r last first

theorem IsCycle.not_acyclic {r : NodeId → NodeId → Prop} {nodes : List NodeId}
    (h : IsCycle r nodes) : ¬ Acyclic r := by
  obtain ⟨hne, -, hchain, hclosed⟩ := h
  cases nodes with
  | nil => exact absurd rfl hne
  | cons first rest =>
    intro ha
    have hpath := List.relationReflTransGen_of_exists_isChain_cons rest hchain rfl
    have hlast : (first :: rest).getLast? = some ((first :: rest).getLast hne) :=
      List.getLast?_eq_some_getLast hne
    exact ha first (Relation.TransGen.tail' hpath (hclosed first rfl _ hlast))

/-- Nodes from which no edge leads to another node and which lie on no cycle. -/
structure Settled (r : NodeId → NodeId → Prop) (done : NodeId → Prop) : Prop where
  closed : ∀ u, done u → ∀ v, r u v → done v
  acyclic : ∀ u, done u → ¬ Relation.TransGen r u u

theorem Settled.reaches {r : NodeId → NodeId → Prop} {done : NodeId → Prop} (h : Settled r done)
    {u v : NodeId} (hu : done u) (huv : Relation.TransGen r u v) : done v := by
  induction huv with
  | single e => exact h.closed u hu _ e
  | tail _ e ih => exact h.closed _ ih _ e

/-- A node whose edges lead to settled nodes is settled as well: a cycle through it would come back
to it from a settled node. -/
theorem Settled.insert {r : NodeId → NodeId → Prop} {done : NodeId → Prop} (h : Settled r done)
    {node : NodeId} (hn : ¬ done node) (hs : ∀ v, r node v → done v) :
    Settled r fun v => v = node ∨ done v where
  closed u hu v hv := by
    rcases hu with rfl | hu
    · exact .inr (hs v hv)
    · exact .inr (h.closed u hu v hv)
  acyclic u hu hc := by
    -- the first edge of the cycle leads to a settled node, from which only settled ones are reached
    rcases hu with rfl | hu
    · rcases Relation.TransGen.head'_iff.mp hc with ⟨w, hw, hwu⟩
      rcases Relation.reflTransGen_iff_eq_or_transGen.mp hwu with rfl | hwu
      · exact hn (hs _ hw)
      · exact hn (h.reaches (hs w hw) hwu)
    · exact h.acyclic u hu hc

namespace Search

/-! ## Colours -/

theorem colour?_paint (s : Search) (node v : NodeId) (c : Colour) :
    (s.paint node c).colour? v =
      if v = node then (s.colour? v).map fun _ => c else s.colour? v := by
  simp only [colour?, paint, List.find?_map]
  have hkey : ((fun p : NodeId × Colour => decide (p.1 = v)) ∘
      fun p => if p.1 = node then (node, c) else p) = fun p => decide (p.1 = v) := by
    funext p
    by_cases hp : p.1 = node <;> simp [hp]
  rw [hkey]
  cases hf : s.colours.find? fun p => p.1 = v with
  | none => simp
  | some p =>
    have hp : p.1 = v := by simpa using List.find?_some hf
    by_cases hv : v = node <;> simp [hp, hv]

theorem map_fst_paint (s : Search) (node : NodeId) (c : Colour) :
    (s.paint node c).colours.map Prod.fst = s.colours.map Prod.fst := by
  simp only [paint, List.map_map]
  refine List.map_congr_left fun p _ => ?_
  by_cases hp : p.1 = node <;> simp [hp]

theorem exists_colour? {s : Search} {v : NodeId} (h : v ∈ s.colours.map Prod.fst) :
    ∃ c, s.colour? v = some c := by
  rw [← Option.isSome_iff_exists, colour?, Option.isSome_map, List.find?_isSome]
  simpa using h

theorem mem_of_colour? {s : Search} {v : NodeId} {c : Colour} (h : s.colour? v = some c) :
    v ∈ s.colours.map Prod.fst := by
  obtain ⟨p, hp, -⟩ := Option.map_eq_some_iff.mp h
  have hv : p.1 = v := by simpa using List.find?_some hp
  exact hv ▸ List.mem_map_of_mem (List.mem_of_find?_eq_some hp)

variable {successors : NodeId → List NodeId}

/-! ## What one step does -/

/-- The steps after which a search goes on. -/
inductive Goes (successors : NodeId → List NodeId) (s : Search) : Search → Prop
  /-- A white root is met. -/
  | meet {root : NodeId} {rest : List NodeId} (stack : s.stack = [])
      (roots : s.roots = root :: rest) (white : s.colour? root = some .white) :
      Goes successors s { s.paint root .grey with roots := rest, stack := [(root, 0)] }
  /-- A root that was met before is left out. -/
  | skip {root : NodeId} {rest : List NodeId} {c : Colour} (stack : s.stack = [])
      (roots : s.roots = root :: rest) (colour : s.colour? root = some c) (met : c ≠ .white) :
      Goes successors s { s with roots := rest }
  /-- A white successor becomes the node at hand. -/
  | descend {node child : NodeId} {seen : Nat} {below : List (NodeId × Nat)}
      (stack : s.stack = (node, seen) :: below)
      (successor : (successors node)[seen]? = some child) (white : s.colour? child = some .white) :
      Goes successors s
        { s.paint child .grey with stack := (child, 0) :: (node, seen + 1) :: below }
  /-- A black successor needs no visit. -/
  | pass {node child : NodeId} {seen : Nat} {below : List (NodeId × Nat)}
      (stack : s.stack = (node, seen) :: below)
      (successor : (successors node)[seen]? = some child) (black : s.colour? child = some .black) :
      Goes successors s { s with stack := (node, seen + 1) :: below }
  /-- The node at hand has no further successor. -/
  | leave {node : NodeId} {seen : Nat} {below : List (NodeId × Nat)}
      (stack : s.stack = (node, seen) :: below) (last : (successors node)[seen]? = none) :
      Goes successors s { s.paint node .black with stack := below }

/-- The steps that end a search. -/
inductive Ends (successors : NodeId → List NodeId) (s : Search) : SearchResult → Prop
  /-- Nothing is left to search. -/
  | clear (stack : s.stack = []) (roots : s.roots = []) : Ends successors s .clear
  | uncolouredRoot {root : NodeId} {rest : List NodeId} (roots : s.roots = root :: rest)
      (colour : s.colour? root = none) : Ends successors s (.uncoloured root)
  | uncolouredChild {node child : NodeId} {seen : Nat} {below : List (NodeId × Nat)}
      (stack : s.stack = (node, seen) :: below)
      (successor : (successors node)[seen]? = some child) (colour : s.colour? child = none) :
      Ends successors s (.uncoloured child)
  /-- A successor on the path closes a cycle. -/
  | cycle {node child : NodeId} {seen : Nat} {below : List (NodeId × Nat)}
      (stack : s.stack = (node, seen) :: below)
      (successor : (successors node)[seen]? = some child) (grey : s.colour? child = some .grey) :
      Ends successors s (.cycle (s.loop child))

/-- Looking at a successor reads the colours and the nodes on the path only. -/
theorem look_seen (s : Search) {node child : NodeId} {seen : Nat} {below : List (NodeId × Nat)}
    (hs : s.stack = (node, seen) :: below) :
    look { s with stack := (node, seen + 1) :: below } child =
      match s.colour? child with
      | none => .halt (.uncoloured child)
      | some .white => .next { s.paint child .grey with
          stack := (child, 0) :: (node, seen + 1) :: below }
      | some .grey => .halt (.cycle (s.loop child))
      | some .black => .next { s with stack := (node, seen + 1) :: below } := by
  obtain ⟨colours, roots, stack⟩ := s
  obtain rfl : stack = (node, seen) :: below := hs
  rfl

theorem goes_of_step {s t : Search} (h : s.step successors = .next t) : Goes successors s t := by
  unfold step at h
  split at h
  · cases h
  · next root rest hs hr =>
    unfold start at h
    split at h
    · cases h
    · next hw => cases h; exact .meet hs hr hw
    · next c hne hc => cases h; exact .skip hs hr hc hne
  · next node seen below _ hs =>
    split at h
    · next child hc =>
      rw [look_seen s hs] at h
      split at h
      · cases h
      · next hw => cases h; exact .descend hs hc hw
      · cases h
      · next hb => cases h; exact .pass hs hc hb
    · next hc => cases h; exact .leave hs hc

theorem ends_of_step {s : Search} {r : SearchResult} (h : s.step successors = .halt r) :
    Ends successors s r := by
  unfold step at h
  split at h
  · next hs hr => cases h; exact .clear hs hr
  · next root rest hs hr =>
    unfold start at h
    split at h
    · next hn => cases h; exact .uncolouredRoot hr hn
    · cases h
    · cases h
  · next node seen below _ hs =>
    split at h
    · next child hc =>
      rw [look_seen s hs] at h
      split at h
      · next hn => cases h; exact .uncolouredChild hs hc hn
      · cases h
      · next hg => cases h; exact .cycle hs hc hg
      · cases h
    · cases h

/-! ## Work -/

/-- What a white node will take: one step to be left, and one for every successor. -/
def whiteWork (successors : NodeId → List NodeId) (p : NodeId × Colour) : Nat :=
  if p.2 = .white then 1 + (successors p.1).length else 0

/-- What a node on the path will still take. -/
def stackWork (successors : NodeId → List NodeId) (p : NodeId × Nat) : Nat :=
  1 + ((successors p.1).length - p.2)

/-- How many steps a search has left at most, before the one that ends it. -/
def work (successors : NodeId → List NodeId) (s : Search) : Nat :=
  s.roots.length + (s.colours.map (whiteWork successors)).sum +
    (s.stack.map (stackWork successors)).sum

/-- Painting never adds white work. -/
theorem whiteWork_paint_le (successors : NodeId → List NodeId) (s : Search) (node : NodeId)
    {c : Colour} (hc : c ≠ .white) :
    ((s.paint node c).colours.map (whiteWork successors)).sum ≤
      (s.colours.map (whiteWork successors)).sum := by
  simp only [paint, List.map_map]
  refine List.sum_le_sum fun p _ => ?_
  by_cases hp : p.1 = node <;> simp [hp, whiteWork, hc]

/-- Painting a white node takes its work away. -/
theorem whiteWork_paint_add_le (successors : NodeId → List NodeId) (s : Search) {node : NodeId}
    {c : Colour} (hc : c ≠ .white) (hw : s.colour? node = some .white) :
    ((s.paint node c).colours.map (whiteWork successors)).sum + (1 + (successors node).length) ≤
      (s.colours.map (whiteWork successors)).sum := by
  obtain ⟨colours, roots, stack⟩ := s
  induction colours with
  | nil => simp [colour?] at hw
  | cons p rest ih =>
    by_cases hp : p.1 = node
    · have hp2 : p.2 = .white := by simpa [colour?, hp] using hw
      have hle := whiteWork_paint_le successors ⟨rest, roots, stack⟩ node hc
      simp only [paint, List.map_map] at hle
      simp only [paint, List.map_cons, List.sum_cons, List.map_map, hp, if_true, whiteWork, hc,
        if_false, hp2]
      omega
    · have hw' : colour? ⟨rest, roots, stack⟩ node = some .white := by
        simpa [colour?, hp] using hw
      have := ih hw'
      simp only [paint, List.map_map] at this
      simp only [paint, List.map_cons, List.sum_cons, List.map_map, hp, if_false]
      omega

/-- Every step uses up work, from whatever state. -/
theorem work_step {s t : Search} (h : s.step successors = .next t) :
    t.work successors < s.work successors := by
  obtain ⟨colours, roots, stack⟩ := s
  cases goes_of_step h with
  | meet hs hr hw =>
    obtain ⟨rfl, rfl⟩ : stack = [] ∧ roots = _ := ⟨hs, hr⟩
    have := whiteWork_paint_add_le successors _ (c := .grey) (by decide) hw
    simp only [work, stackWork, paint, List.length_cons, List.map_cons, List.map_nil,
      List.sum_cons, List.sum_nil] at this ⊢
    omega
  | skip hs hr hc hne =>
    obtain ⟨rfl, rfl⟩ : stack = [] ∧ roots = _ := ⟨hs, hr⟩
    simp only [work, List.length_cons]
    omega
  | descend hs hc hw =>
    obtain rfl : stack = _ := hs
    have hlt := (List.getElem?_eq_some_iff.mp hc).1
    have := whiteWork_paint_add_le successors _ (c := .grey) (by decide) hw
    simp only [work, stackWork, paint, List.map_cons, List.sum_cons] at this ⊢
    omega
  | pass hs hc hb =>
    obtain rfl : stack = _ := hs
    have hlt := (List.getElem?_eq_some_iff.mp hc).1
    simp only [work, stackWork, List.map_cons, List.sum_cons]
    omega
  | @leave node seen below hs hc =>
    obtain rfl : stack = _ := hs
    have := whiteWork_paint_le successors
      ⟨colours, roots, (node, seen) :: below⟩ node (c := .black) (by decide)
    simp only [work, stackWork, paint, List.map_cons, List.sum_cons] at this ⊢
    omega

/-- A run with more steps than work comes to an end. -/
theorem run_ne_unfinished {bound : Nat} {s : Search} (h : s.work successors < bound) :
    run successors bound s ≠ .unfinished := by
  induction bound generalizing s with
  | zero => exact absurd h (Nat.not_lt_zero _)
  | succ bound ih =>
    unfold run
    cases hs : s.step successors with
    | next t =>
      have := work_step hs
      exact ih (by omega)
    | halt r => cases ends_of_step hs <;> exact SearchResult.noConfusion

/-! ## What holds of every state -/

/-- There is an edge to every successor. -/
def Edge (successors : NodeId → List NodeId) (u v : NodeId) : Prop :=
  v ∈ successors u

/-- The nodes that are done. -/
def Black (s : Search) (v : NodeId) : Prop :=
  s.colour? v = some .black

/-- What was looked at from a node on the path is black or comes next on the path. The node that
comes next after the whole list is `above`. -/
def Looked (successors : NodeId → List NodeId) (black : NodeId → Prop) :
    Option NodeId → List (NodeId × Nat) → Prop
  | _, [] => True
  | above, (node, seen) :: below =>
    (∀ w ∈ (successors node).take seen, black w ∨ above = some w) ∧
      Looked successors black (some node) below

/-- What holds of every state of a search among the nodes `ids`. -/
structure Sound (successors : NodeId → List NodeId) (ids : List NodeId) (s : Search) : Prop where
  keys : s.colours.map Prod.fst = ids
  roots : ∀ r ∈ s.roots, r ∈ ids
  white : ∀ v, s.colour? v = some .white → v ∈ s.roots
  grey : ∀ v, s.colour? v = some .grey ↔ v ∈ s.stack.map Prod.fst
  nodup : (s.stack.map Prod.fst).Nodup
  chain : (s.stack.map Prod.fst).IsChain fun above below => Edge successors below above
  looked : Looked successors s.Black none s.stack
  settled : Settled (Edge successors) s.Black

theorem Looked.mono {black black' : NodeId → Prop} (hb : ∀ v, black v → black' v)
    {above : Option NodeId} {stack : List (NodeId × Nat)}
    (h : Looked successors black above stack) : Looked successors black' above stack := by
  induction stack generalizing above with
  | nil => trivial
  | cons p below ih => exact ⟨fun w hw => (h.1 w hw).imp_left (hb w), ih h.2⟩

/-- Once the node that comes next is black, nothing has to come next. -/
theorem Looked.of_black {black : NodeId → Prop} {node : NodeId} (hb : black node)
    {stack : List (NodeId × Nat)} (h : Looked successors black (some node) stack) :
    Looked successors black none stack := by
  cases stack with
  | nil => trivial
  | cons p below =>
    refine ⟨fun w hw => .inl ?_, h.2⟩
    rcases h.1 w hw with hw | hw
    · exact hw
    · exact Option.some.inj hw ▸ hb

/-- Looking at one more successor, which is black or comes next. -/
theorem Looked.look {black : NodeId → Prop} {node child : NodeId} {seen : Nat}
    {below : List (NodeId × Nat)} {above : Option NodeId}
    (h : Looked successors black none ((node, seen) :: below))
    (hc : (successors node)[seen]? = some child) (hb : black child ∨ above = some child) :
    Looked successors black above ((node, seen + 1) :: below) := by
  refine ⟨fun w hw => ?_, h.2⟩
  rw [List.take_add_one, hc, Option.toList_some, List.mem_append, List.mem_singleton] at hw
  rcases hw with hw | rfl
  · exact .inl ((h.1 w hw).resolve_right nofun)
  · exact hb

/-! ## What one step keeps -/

theorem colour?_paint_of_some {s : Search} {node : NodeId} {d : Colour}
    (h : s.colour? node = some d) (c : Colour) (v : NodeId) :
    (s.paint node c).colour? v = if v = node then some c else s.colour? v := by
  rw [colour?_paint]
  by_cases hv : v = node
  · rw [if_pos hv, if_pos hv, hv, h, Option.map_some]
  · rw [if_neg hv, if_neg hv]

/-- Meeting a white node makes none black. -/
theorem black_paint_grey {s : Search} {node : NodeId} (h : s.colour? node = some .white) :
    (s.paint node .grey).Black = s.Black := by
  funext v
  rw [Black, Black, colour?_paint_of_some h]
  by_cases hv : v = node <;> simp [hv, h]

theorem black_paint_black {s : Search} {node : NodeId} {d : Colour}
    (h : s.colour? node = some d) :
    (s.paint node .black).Black = fun v => v = node ∨ s.Black v := by
  funext v
  rw [Black, Black, colour?_paint_of_some h]
  by_cases hv : v = node <;> simp [hv]

theorem white_paint {s : Search} {node : NodeId} {c d : Colour} (hc : c ≠ .white)
    (h : s.colour? node = some d) (v : NodeId) :
    (s.paint node c).colour? v = some .white ↔ v ≠ node ∧ s.colour? v = some .white := by
  rw [colour?_paint_of_some h]
  by_cases hv : v = node <;> simp [hv, hc]

theorem grey_paint_grey {s : Search} {node : NodeId} {d : Colour} (h : s.colour? node = some d)
    (v : NodeId) :
    (s.paint node .grey).colour? v = some .grey ↔ v = node ∨ s.colour? v = some .grey := by
  rw [colour?_paint_of_some h]
  by_cases hv : v = node <;> simp [hv]

theorem grey_paint_black {s : Search} {node : NodeId} {d : Colour} (h : s.colour? node = some d)
    (v : NodeId) :
    (s.paint node .black).colour? v = some .grey ↔ v ≠ node ∧ s.colour? v = some .grey := by
  rw [colour?_paint_of_some h]
  by_cases hv : v = node <;> simp [hv]

namespace Sound

variable {ids : List NodeId} {s : Search}

theorem meet (h : Sound successors ids s) {root : NodeId} {rest : List NodeId} (hs : s.stack = [])
    (hr : s.roots = root :: rest) (hw : s.colour? root = some .white) :
    Sound successors ids { s.paint root .grey with roots := rest, stack := [(root, 0)] } where
  keys := (map_fst_paint ..).trans h.keys
  roots r hm := h.roots r (hr ▸ List.mem_cons_of_mem _ hm)
  white v hv := by
    obtain ⟨hne, hv⟩ := (white_paint (c := .grey) (by decide) hw v).mp hv
    have := h.white v hv
    rw [hr] at this
    exact (List.mem_cons.mp this).resolve_left hne
  grey v := by
    refine (grey_paint_grey hw v).trans ?_
    rw [h.grey, hs]
    simp
  nodup := List.nodup_singleton _
  chain := List.isChain_singleton _
  looked := ⟨by simp, trivial⟩
  settled := by
    have := black_paint_grey hw ▸ h.settled
    exact this

theorem skip (h : Sound successors ids s) {root : NodeId} {rest : List NodeId} {c : Colour}
    (hr : s.roots = root :: rest) (hc : s.colour? root = some c) (hne : c ≠ .white) :
    Sound successors ids { s with roots := rest } where
  keys := h.keys
  roots r hm := h.roots r (hr ▸ List.mem_cons_of_mem _ hm)
  white v hv := by
    have := h.white v hv
    rw [hr] at this
    refine (List.mem_cons.mp this).resolve_left ?_
    rintro rfl
    exact hne (Option.some.inj (hc.symm.trans hv))
  grey := h.grey
  nodup := h.nodup
  chain := h.chain
  looked := h.looked
  settled := h.settled

variable {node child : NodeId} {seen : Nat} {below : List (NodeId × Nat)}

theorem descend (h : Sound successors ids s) (hs : s.stack = (node, seen) :: below)
    (hc : (successors node)[seen]? = some child) (hw : s.colour? child = some .white) :
    Sound successors ids
      { s.paint child .grey with stack := (child, 0) :: (node, seen + 1) :: below } where
  keys := (map_fst_paint ..).trans h.keys
  roots := h.roots
  white v hv := h.white v ((white_paint (c := .grey) (by decide) hw v).mp hv).2
  grey v := by
    refine (grey_paint_grey hw v).trans ?_
    rw [h.grey, hs]
    simp
  nodup := by
    -- what is on the path is grey, and the child is white
    have hnew : child ∉ s.stack.map Prod.fst := fun hm => by
      have := (h.grey child).mpr hm
      rw [hw] at this
      cases this
    rw [hs] at hnew
    exact List.nodup_cons.mpr ⟨hnew, by simpa [hs] using h.nodup⟩
  chain := by
    have := h.chain
    rw [hs] at this
    exact .cons_cons (List.mem_of_getElem? hc) this
  looked := by
    have hl := h.looked
    rw [hs, ← black_paint_grey hw] at hl
    exact ⟨by simp, hl.look hc (.inr rfl)⟩
  settled := by
    have := black_paint_grey hw ▸ h.settled
    exact this

theorem pass (h : Sound successors ids s) (hs : s.stack = (node, seen) :: below)
    (hc : (successors node)[seen]? = some child) (hb : s.colour? child = some .black) :
    Sound successors ids { s with stack := (node, seen + 1) :: below } where
  keys := h.keys
  roots := h.roots
  white := h.white
  grey v := by
    refine (h.grey v).trans ?_
    rw [hs]
    simp
  nodup := by simpa [hs] using h.nodup
  chain := by simpa [hs] using h.chain
  looked := by
    have hl := h.looked
    rw [hs] at hl
    exact hl.look hc (.inl hb)
  settled := h.settled

theorem leave (h : Sound successors ids s) (hs : s.stack = (node, seen) :: below)
    (hc : (successors node)[seen]? = none) :
    Sound successors ids { s.paint node .black with stack := below } := by
  have hg : s.colour? node = some .grey := (h.grey node).mpr (by simp [hs])
  have hl := h.looked
  have hnd := h.nodup
  have hch := h.chain
  rw [hs] at hl hnd hch
  -- all successors were looked at, and none comes next on the path: the node is its end
  have hall : ∀ v ∈ successors node, s.Black v := by
    rw [List.getElem?_eq_none_iff] at hc
    exact fun v hv => (hl.1 v (by rwa [List.take_of_length_le hc])).resolve_right nofun
  have hblack : Black { s.paint node .black with stack := below } =
      fun v => v = node ∨ s.Black v := black_paint_black hg
  constructor
  case keys => exact (map_fst_paint ..).trans h.keys
  case roots => exact h.roots
  case white =>
    intro v hv
    exact h.white v ((white_paint (c := .black) (by decide) hg v).mp hv).2
  case grey =>
    intro v
    refine (grey_paint_black hg v).trans ?_
    rw [h.grey, hs]
    constructor
    · rintro ⟨hne, hm⟩
      exact (List.mem_cons.mp hm).resolve_left hne
    · intro hm
      refine ⟨?_, List.mem_cons_of_mem _ hm⟩
      rintro rfl
      exact (List.nodup_cons.mp hnd).1 hm
  case nodup => exact (List.nodup_cons.mp hnd).2
  case chain => exact hch.tail
  case looked =>
    -- the node below waited for this one, which is black now
    rw [hblack]
    have hbelow : Looked successors (fun v => v = node ∨ s.Black v) (some node) below :=
      hl.2.mono fun v hv => .inr hv
    exact hbelow.of_black (.inl rfl)
  case settled =>
    have hnot : ¬ s.Black node := by
      intro hb
      rw [Black, hg] at hb
      cases hb
    rw [hblack]
    exact h.settled.insert hnot hall

/-- Every step keeps what holds of a search. -/
theorem step (h : Sound successors ids s) {t : Search} (hst : s.step successors = .next t) :
    Sound successors ids t := by
  cases goes_of_step hst with
  | meet hs hr hw => exact h.meet hs hr hw
  | skip hs hr hc hne => exact h.skip hr hc hne
  | descend hs hc hw => exact h.descend hs hc hw
  | pass hs hc hb => exact h.pass hs hc hb
  | leave hs hc => exact h.leave hs hc

end Sound

/-! ## What a run answers -/

/-- The part of the path that begins with a node on it. -/
theorem loop_eq_of_mem {s : Search} {child : NodeId} (h : child ∈ s.path) :
    ∃ i, ∃ hi : i < s.path.length, s.path[i] = child ∧ s.loop child = s.path.drop i := by
  have hsome : (s.path.findIdx? fun n => n = child).isSome := by
    rw [List.findIdx?_isSome, List.any_eq_true]
    exact ⟨child, h, by simp⟩
  obtain ⟨i, hf⟩ := Option.isSome_iff_exists.mp hsome
  obtain ⟨hi, hp, -⟩ := List.findIdx?_eq_some_iff_getElem.mp hf
  exact ⟨i, hi, by simpa using hp, by rw [loop, hf, Option.getD_some]⟩

/-- A grey successor of the node at hand closes a cycle. -/
theorem Sound.isCycle_loop {ids : List NodeId} {s : Search} (h : Sound successors ids s)
    {node child : NodeId} {seen : Nat} {below : List (NodeId × Nat)}
    (hs : s.stack = (node, seen) :: below) (hc : (successors node)[seen]? = some child)
    (hg : s.colour? child = some .grey) : IsCycle (Edge successors) (s.loop child) := by
  -- grey nodes are on the path, so the part from the child on is not empty
  have hmem : child ∈ s.path := List.mem_reverse.mpr ((h.grey child).mp hg)
  obtain ⟨i, hi, hpi, hloop⟩ := loop_eq_of_mem hmem
  have hlast : s.path.getLast? = some node := by
    rw [path, List.getLast?_reverse, hs]
    rfl
  rw [hloop]
  constructor
  case ne_nil =>
    intro hnil
    rw [List.drop_eq_nil_iff] at hnil
    omega
  case nodup => exact (List.nodup_reverse.mpr h.nodup).sublist (List.drop_sublist i _)
  case chain => exact (List.isChain_reverse.mpr h.chain).drop i
  case closed =>
    intro first hf last hl
    rw [List.head?_drop, List.getElem?_eq_getElem hi, hpi] at hf
    rw [List.getLast?_drop, if_neg (by omega), hlast] at hl
    cases hf
    cases hl
    exact List.mem_of_getElem? hc

/-- What makes an answer right. A search that was not given enough steps has answered nothing. -/
def Correct (successors : NodeId → List NodeId) (ids : List NodeId) : SearchResult → Prop
  | .cycle nodes => IsCycle (Edge successors) nodes
  | .clear => ∀ v ∈ ids, ¬ Relation.TransGen (Edge successors) v v
  | .uncoloured _ => False
  | .unfinished => True

variable {ids : List NodeId}

/-- The answer of the last step is right. -/
theorem Sound.correct {s : Search} (inside : ∀ u ∈ ids, ∀ v ∈ successors u, v ∈ ids)
    (h : Sound successors ids s) {r : SearchResult} (he : s.step successors = .halt r) :
    Correct successors ids r := by
  cases ends_of_step he with
  | clear hs hr =>
    -- no root is left, so no node is white; nothing is on the path, so none is grey
    intro v hv
    obtain ⟨c, hc⟩ := exists_colour? (h.keys ▸ hv)
    cases c with
    | white => exact absurd (h.white v hc) (by simp [hr])
    | grey => exact absurd ((h.grey v).mp hc) (by simp [hs])
    | black => exact h.settled.acyclic v hc
  | @uncolouredRoot root rest hr hn =>
    have hmem := h.roots root (hr ▸ List.mem_cons_self)
    obtain ⟨c, hc⟩ := exists_colour? (h.keys ▸ hmem)
    exact Option.some_ne_none c (hc.symm.trans hn)
  | @uncolouredChild node child seen below hs hc hn =>
    have hg : s.colour? node = some .grey := (h.grey node).mpr (by simp [hs])
    have hmem := inside node (h.keys ▸ mem_of_colour? hg) child (List.mem_of_getElem? hc)
    obtain ⟨c, hc⟩ := exists_colour? (h.keys ▸ hmem)
    exact Option.some_ne_none c (hc.symm.trans hn)
  | cycle hs hc hg => exact h.isCycle_loop hs hc hg

/-- Whatever a run answers is right. -/
theorem run_correct (inside : ∀ u ∈ ids, ∀ v ∈ successors u, v ∈ ids) {s : Search}
    (h : Sound successors ids s) (bound : Nat) :
    Correct successors ids (run successors bound s) := by
  induction bound generalizing s with
  | zero => trivial
  | succ bound ih =>
    unfold run
    cases hs : s.step successors with
    | next t => exact ih (h.step hs)
    | halt r => exact h.correct inside hs

/-- The search begins with every node white and a root. -/
theorem sound_init (successors : NodeId → List NodeId) (ids : List NodeId) :
    Sound successors ids ⟨ids.map fun id => (id, .white), ids, []⟩ := by
  have hcol : ∀ v c, colour? ⟨ids.map fun id => (id, .white), ids, []⟩ v = some c →
      v ∈ ids ∧ c = .white := by
    intro v c h
    obtain ⟨p, hp, rfl⟩ := Option.map_eq_some_iff.mp h
    have hv : p.1 = v := by simpa using List.find?_some hp
    obtain ⟨id, hid, rfl⟩ := List.mem_map.mp (List.mem_of_find?_eq_some hp)
    exact ⟨hv ▸ hid, rfl⟩
  constructor
  case keys => simp [Function.comp_def]
  case roots => exact fun r hr => hr
  case white => exact fun v hv => (hcol v _ hv).1
  case grey =>
    intro v
    constructor
    · intro hv
      exact Colour.noConfusion (hcol v _ hv).2
    · intro hv
      exact absurd hv List.not_mem_nil
  case nodup => exact .nil
  case chain => exact .nil
  case looked => trivial
  case settled =>
    have hnone : ∀ v, ¬ Black ⟨ids.map fun id => (id, .white), ids, []⟩ v := fun v hv =>
      Colour.noConfusion (hcol v _ hv).2
    exact ⟨fun u hu => absurd hu (hnone u), fun u hu => absurd hu (hnone u)⟩

end Search

/-! ## Edges of a graph -/

namespace Graph

variable {κ : Type}

/-- Some connection leads from one node to the other. -/
def Leads (g : Graph κ) (u v : NodeId) : Prop :=
  ∃ c ∈ g.connections, c.source.node = u ∧ c.target.node = v

theorem leads_of_connections {g g' : Graph κ} (hc : g'.connections = g.connections) :
    g'.Leads = g.Leads := by
  funext u v
  rw [Leads, hc, Leads]

theorem mem_successors {g : Graph κ} {u v : NodeId} : v ∈ g.successors u ↔ g.Leads u v := by
  simp [successors, Leads, and_assoc]

theorem edge_successors (g : Graph κ) : Search.Edge g.successors = g.Leads := by
  funext u v
  exact propext mem_successors

end Graph

end TextureFlow

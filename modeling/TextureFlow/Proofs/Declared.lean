import Mathlib
import TextureFlow.Catalogue.Basic
import TextureFlow.Kernel.Scripted
import TextureFlow.Proofs.Dataflow
import TextureFlow.Proofs.Fate

/-!
# What a generation tells about an input

An input shows its fallback at generation `0`, or a value that some pass stamped, so the generation
tells the value as long as the fallback stays. There is one way around the clock: a kernel may
declare an output with a value. A node is created with that value, no pass has stamped it, and while
the node fails nothing overwrites it. An input that it feeds shows it with the declared generation,
which is `0` for ports from the builders, as if it were the fallback.

* `Session.Recorded.run`: an output is as it was declared, or holds what some pass stamped;
* `Graph.Passed.explains_or`: so an input shows what its generation stands for, or is fed by such an
  output;
* `Session.generations_tell`: where the generations of two inputs agree in two passes, so do the
  values, but for declared outputs;
* `Session.generations_blur`: a declared output makes a memoized node keep a value that is no longer
  fed to it.
-/

namespace TextureFlow

variable {κ : Type}

/-! ## Declared outputs -/

section

variable [Kernel κ]

/-- Whether an edit creates a node with an output that its kernel declares like this. -/
def Edit.Declares (e : Edit κ) (q : Port) : Prop :=
  ∃ d, e.draft? = some d ∧
    ∃ p ∈ (Kernel.layout d.kernel).outputs, q = { p with direction := .output }

/-- The outputs of a new node are the declared ones. -/
theorem Node.declares_of_draft? {e : Edit κ} {d : Draft κ} (hd : e.draft? = some d) (id : NodeId) :
    ∀ q ∈ (d.node id).outputs, e.Declares q := by
  intro q hq
  obtain ⟨name, strategy, hnode⟩ := exists_node_eq d id
  rw [hnode] at hq
  obtain ⟨p, hp, rfl⟩ := List.mem_map.mp hq
  exact ⟨d, hd, p, hp, rfl⟩

/-- What a node is created with where outputs start without a value. -/
theorem Edit.Declares.value_eq_none {e : Edit κ} {q : Port} (h : e.Declares q) (hb : e.Blank) :
    q.value = none := by
  obtain ⟨d, hd, p, hp, rfl⟩ := h
  exact hb d hd p hp

/-- An output is as an edit of a history declares it. -/
def Port.DeclaredIn (es : List (Edit κ)) (q : Port) : Prop :=
  ∃ e ∈ es, e.Declares q

end

/-- An output is one of certain outputs, or all that it holds was stamped with its generation. -/
def Port.Sourced (D : Port → Prop) (T : Stamps) (q : Port) : Prop :=
  D q ∨ q.generation ≠ 0 ∧ ∀ v, q.value = some v → T q.generation v

theorem Port.Sourced.mono {D : Port → Prop} {T U : Stamps} (hT : T ≤ U) {q : Port}
    (h : q.Sourced D T) : q.Sourced D U :=
  h.imp_right fun ⟨hne, hput⟩ => ⟨hne, fun v hv => hT _ _ (hput v hv)⟩

/-- Where every output of a node comes from. -/
def Node.Sourced (D : Port → Prop) (T : Stamps) (n : Node κ) : Prop :=
  ∀ q ∈ n.outputs, q.Sourced D T

theorem Node.stable_sourced [Kernel κ] (D : Port → Prop) (T : Stamps) :
    Node.Stable (κ := κ) (Node.Sourced D T) where
  renumber _ _ h := h
  apply _ _ _ h he := by
    rw [Node.Sourced, (Node.apply_eq_ok he).2]
    exact h

/-! ## A pass -/

namespace Graph

variable {settings : Settings} {g h : Graph κ} {r : Report} {verdict : NodeId → Verdict}
  {base top : NodeId → Nat} {D : Port → Prop} {T : Stamps}

/-- The input at a place. -/
def input? (g : Graph κ) (place : InputPlace) : Option Port :=
  (g.node? place.node).bind fun n => n.inputs[place.input]?

theorem input?_eq_some {place : InputPlace} {p : Port} (hp : g.input? place = some p) :
    ∃ n ∈ g.nodes, n.id = place.node ∧ n.inputs[place.input]? = some p := by
  obtain ⟨n, hn, hp⟩ := Option.bind_eq_some_iff.mp hp
  obtain ⟨hn, hid⟩ := mem_of_node? hn
  exact ⟨n, hn, hid, hp⟩

variable [Kernel κ]

/-- An output at the end of a pass was there before, or holds what the pass stamped. -/
theorem Passed.sourced (hp : Passed settings g h r verdict base top)
    (hs : ∀ n ∈ g.nodes, n.Sourced D T) : ∀ n ∈ h.nodes, n.Sourced D (T ⊔ g.puts h r) := by
  intro n hn q hq
  obtain ⟨m, hm, -, rfl⟩ := hp.exists_turned hn
  rcases (hp.written hm).mem_cases hq with hold | ⟨hne, hput⟩
  · exact (hs m hm q hold).mono le_sup_left
  · exact .inr ⟨hne, fun v hv => .inr (hp.puts_iff.mpr ⟨m, hm, hput v hv⟩)⟩

/-- After a pass an input that is not fed by one of certain outputs shows what its generation stands
for. -/
theorem Passed.explains_or (hp : Passed settings g h r verdict base top)
    (hs : ∀ n ∈ h.nodes, n.Sourced D T) {place : InputPlace} {p : Port}
    (hin : h.input? place = some p) {v : Value} (hv : p.value = some v) :
    p.Explains T p.generation v ∨ ∃ o, h.feed? place = some o ∧ o.value = some v ∧ D o := by
  obtain ⟨n, hn, hid, hpn⟩ := input?_eq_some hin
  obtain ⟨p', rfl⟩ := hp.exists_resolve hn hpn
  rw [hid] at hv ⊢
  cases hfeed : h.feed? ⟨place.node, place.input⟩ with
  | none =>
    rw [hfeed] at hv
    exact .inl (.inl ⟨rfl, hv⟩)
  | some o =>
    rw [hfeed] at hv
    obtain ⟨m, hm, ho⟩ := mem_of_feed? hfeed
    rcases hs m hm o ho with hD | ⟨hne, hput⟩
    · exact .inr ⟨o, rfl, hv, hD⟩
    · exact .inl (.inr ⟨hne, hput v hv⟩)

/-- An input is fed by an output that holds a value and is as it was declared. -/
def ShowsDeclared (g : Graph κ) (es : List (Edit κ)) (place : InputPlace) : Prop :=
  ∃ o, g.feed? place = some o ∧ o.value ≠ none ∧ o.DeclaredIn es

/-- Where outputs start without a value, no input shows a declared one. -/
theorem not_showsDeclared {es : List (Edit κ)} (hb : ∀ e ∈ es, e.Blank) (g : Graph κ)
    (place : InputPlace) : ¬ g.ShowsDeclared es place := by
  rintro ⟨o, -, hv, e, he, hd⟩
  exact hv (hd.value_eq_none (hb e he))

end Graph

/-! ## Fallbacks -/

/-- An input of one node has the fallback that it has in the other. -/
def Node.SameFallback (i : Nat) (n m : Node κ) : Prop :=
  (m.inputs.map Port.fallback)[i]? = (n.inputs.map Port.fallback)[i]?

/-- The fallback of an input stays unless it is edited. -/
theorem Node.lasting_sameFallback [Kernel κ] (i : Nat) :
    Node.Lasting (fun e => ∀ x, e ≠ .fallback i x) (Node.SameFallback (κ := κ) i) where
  refl _ := rfl
  trans hnm hmk := hmk.trans hnm
  apply hE happlied := by
    cases edited_of_apply happlied with
    | @fallback index v p q place fits edit =>
      have hne : index ≠ i := fun hi => hE v (by rw [hi])
      rw [SameFallback, List.map_set, List.getElem?_set_ne hne]
    | _ => rfl

/-- Nor does a pass change it. -/
theorem Node.lastsTurns_sameFallback [Kernel κ] (i : Nat) :
    Node.LastsTurns (Node.SameFallback (κ := κ) i) := by
  intro settings g h r verdict base top n hp hn
  rw [SameFallback, Graph.inputs_turned, Graph.fed, map_fallback_resolve]
  rfl

/-! ## Sessions -/

namespace Session

variable [Kernel κ]

/-- A ledger that agrees with the clocks and accounts for all outputs but certain ones. -/
structure Recorded (D : Port → Prop) (L : Nat → Stamps) (s : Session κ) : Prop
    extends Clocked L s where
  sourced : s.Everywhere (Node.Sourced D (Stamps.anyOf L))

namespace Recorded

variable {D : Port → Prop} {L : Nat → Stamps} {s : Session κ}

omit [Kernel κ] in
theorem start (name : String) : Recorded D ⊥ (Session.start name : Session κ) where
  toClocked := .start name
  sourced := .start name

/-- A pass accounts for the outputs that it writes. -/
theorem evaluate (h : Recorded D L s) {settings : Settings} {g : Graph κ} {r : Report}
    (he : s.graph.evaluate settings = .ok (g, r)) :
    Recorded D (L ⊔ s.puts (.evaluate settings)) (s.setGraph g) where
  toClocked := h.toClocked.evaluate he
  sourced := by
    obtain ⟨verdict, base, top, hp⟩ := Graph.evaluate_spec h.wellFormed.graph he
    have hold : s.Everywhere (Node.Sourced D (Stamps.anyOf (L ⊔ s.puts (.evaluate settings)))) :=
      h.sourced.mono fun n hn q hq => (hn q hq).mono (Stamps.anyOf_mono le_sup_left)
    refine hold.setGraph fun n hn q hq => ?_
    exact (hp.sourced h.sourced.graph n hn q hq).mono (anyOf_sup_puts_le he L)

/-- Every edit keeps the account, where the outputs of new nodes are among the exceptions. -/
theorem step (h : Recorded D L s) {e : Edit κ} (hD : ∀ q, e.Declares q → D q) :
    Recorded D (L ⊔ s.puts e) (s.step e).2 :=
  keep_step (E := fun e => ∀ q, e.Declares q → D q) (fun _ _ _ _ _ h => h.evaluate)
    (fun _ _ _ h he hD => ⟨h.toClocked.edit he, h.sourced.step (Node.stable_sourced _ _) he
      fun _ id hd q hq => .inl (hD q (Node.declares_of_draft? hd id q hq))⟩) h hD

/-- Every history keeps the account. -/
theorem run (h : Recorded D L s) {es : List (Edit κ)} (hD : ∀ e ∈ es, ∀ q, e.Declares q → D q) :
    Recorded D (L ⊔ s.ledger es) (s.run es) :=
  keep_run (fun _ _ _ h hD => h.step hD) h hD

end Recorded

/-- After a pass an input that is not fed by a declared output shows what its generation stands
for. -/
theorem Recorded.explains_or {L : Nat → Stamps} {s : Session κ} {es : List (Edit κ)}
    (h : Recorded (Port.DeclaredIn es) L s) {settings : Settings} {g : Graph κ}
    {r : Report} (he : s.graph.evaluate settings = .ok (g, r)) {place : InputPlace} {p : Port}
    (hp : g.input? place = some p) {v : Value} (hv : p.value = some v) :
    p.Explains (Stamps.anyOf (L ⊔ s.puts (.evaluate settings))) p.generation v ∨
      g.ShowsDeclared es place := by
  obtain ⟨verdict, base, top, hpass⟩ := Graph.evaluate_spec h.wellFormed.graph he
  have hs := (h.evaluate he).sourced.graph
  rw [graph_setGraph h.wellFormed.current] at hs
  refine (hpass.explains_or hs hp hv).imp_right ?_
  rintro ⟨o, hfeed, ho, hD⟩
  exact ⟨o, hfeed, by simp [ho], hD⟩

/-- In a session on one graph an input that is there after a pass has the fallback that it had
before, unless this was edited. -/
theorem fallback_run {s : Session κ} (h : s.WellFormed) (hl : s.graphs.length = 1)
    {es : List (Edit κ)} (hone : ∀ e ∈ es, e.OnOneGraph) {place : InputPlace}
    (hed : ∀ x, .node (.node place.node) (.fallback place.input x) ∉ es) {p q : Port}
    (hp : s.graph.input? place = some p) {settings : Settings} {g : Graph κ} {r : Report}
    (he : (s.run es).graph.evaluate settings = .ok (g, r)) (hq : g.input? place = some q) :
    q.fallback = p.fallback := by
  obtain ⟨m, hm, hmp⟩ := Option.bind_eq_some_iff.mp hp
  obtain ⟨n, hn, hnq⟩ := Option.bind_eq_some_iff.mp hq
  obtain ⟨hmem, hid⟩ := Graph.mem_of_node? hm
  have hissued : place.node ≤ s.issued :=
    hid ▸ h.issued _ h.graph_mem _ (List.mem_map_of_mem hmem)
  have hend : (s.run (es ++ [.evaluate settings])).graph.node? place.node = some n := by
    rw [run_evaluate he []]
    exact (congrArg (Graph.node? · _) (graph_setGraph (wellFormed_run h es).current g)).trans hn
  have hpass : ∀ e ∈ es ++ [.evaluate settings], e.OnOneGraph :=
    List.forall_mem_append.mpr ⟨hone, by simp [Edit.OnOneGraph]⟩
  obtain ⟨m', hm', hsame⟩ := lasting_run (Node.lasting_sameFallback place.input) h hl hpass
    (.inr (Node.lastsTurns_sameFallback place.input))
    (fun _ hx x he => hed x (by simpa [he] using hx)) hissued hend
  obtain rfl := Option.some.inj (hm.symm.trans hm')
  simpa [Node.SameFallback, hnq, hmp] using hsame

/-- After a pass in a session on one graph, an input at generation `0` shows its fallback. If an
input bears the same generation after a later pass and has the same fallback, as an input of a node
that stays has until its fallback is edited, then it shows the same value. In both cases the input
may instead be fed by an output that holds what its kernel declared it with, and only then is this
otherwise. -/
theorem generations_tell (name : String) {es : List (Edit κ)} (hone : ∀ e ∈ es, e.OnOneGraph)
    {settings : Settings} {g : Graph κ} {r : Report}
    (hg : ((start name).run es).graph.evaluate settings = .ok (g, r)) {place : InputPlace}
    {p : Port} {v : Value} (hp : g.input? place = some p) (hv : p.value = some v) :
    (p.generation = 0 → p.fallback = some v ∨ g.ShowsDeclared es place) ∧
    ∀ later : List (Edit κ), (∀ e ∈ later, e.OnOneGraph) →
      ∀ (settings' : Settings) (h : Graph κ) (r' : Report),
      ((start name).run (es ++ .evaluate settings :: later)).graph.evaluate settings' =
        .ok (h, r') →
      ∀ (place' : InputPlace) (q : Port) (w : Value), h.input? place' = some q →
        q.value = some w → q.generation = p.generation →
        q.fallback = p.fallback ∨ (place' = place ∧
          ∀ x, .node (.node place.node) (.fallback place.input x) ∉ later) →
        w = v ∨ g.ShowsDeclared es place ∨ h.ShowsDeclared (es ++ later) place' := by
  have hrecorded : Recorded (Port.DeclaredIn es) _ ((start name).run es) :=
    (Recorded.start name).run fun e he q hq => ⟨e, he, hq⟩
  have hfirst := hrecorded.explains_or hg hp hv
  refine ⟨fun hzero => hfirst.imp_left fun hex => ?_, ?_⟩
  · rcases hex with ⟨-, hfallback⟩ | ⟨hne, -⟩
    · exact hfallback
    · exact absurd hzero hne
  intro later hlater settings' h r' hh place' q w hq hw hγ hsame
  -- the history goes on from what the first pass left
  rw [run_evaluate hg] at hh
  have hbetween : Recorded (Port.DeclaredIn (es ++ later)) _
      (((start name).run es).setGraph g) :=
    ((Recorded.start name).run fun e he q hq => ⟨e, List.mem_append_left _ he, hq⟩).evaluate hg
  have hl : (((start name).run es).setGraph g).graphs.length = 1 :=
    (List.length_set ..).trans (length_graphs_run rfl hone)
  have hlast := hbetween.run fun e he q hq => ⟨e, List.mem_append_right _ he, hq⟩
  have hfallback : q.fallback = p.fallback := by
    rcases hsame with hsame | ⟨rfl, hed⟩
    · exact hsame
    refine fallback_run hbetween.wellFormed hl hlater hed ?_ hh hq
    rw [graph_setGraph hrecorded.wellFormed.current, hp]
  rcases hfirst with hfirst | hdeclared
  case inr => exact .inr (.inl hdeclared)
  rcases hlast.explains_or hh hq hw with hsecond | hdeclared
  case inr => exact .inr (.inr hdeclared)
  have hsingle := (hlast.evaluate hh).anyOf_single
    ((List.length_set ..).trans (length_graphs_run hl hlater))
  rw [hγ] at hsecond
  -- what was stamped up to the first pass is still in the ledger after the second
  exact .inl (hsecond.unique hsingle
    (hfirst.mono (Stamps.anyOf_mono (le_sup_left.trans le_sup_left))) hfallback.symm)

/-- A constant feeds a sum. -/
def adding : List (Edit Builtin) := [
  .add (.ofKernel (.scalarConstant 1)), .add (.ofKernel (.math .add)), .connect ⟨2, 0⟩ ⟨4, 0⟩]

/-- The constant is taken away for one pass, and given back. -/
def regained : List (Edit Builtin) := [
  .disconnect ⟨4, 0⟩, .evaluate .standard, .connect ⟨2, 0⟩ ⟨4, 0⟩]

/-- In the first pass and in the last the input bears the generation `1`, so it shows the same. -/
theorem generations_tell_adding : ∃ g r h r' p q v w,
    ((start "adding").run adding).graph.evaluate .standard = .ok (g, r) ∧
    ((start "adding").run (adding ++ .evaluate .standard :: regained)).graph.evaluate .standard =
      .ok (h, r') ∧
    g.input? ⟨4, 0⟩ = some p ∧ p.generation = 1 ∧ p.value = some v ∧
    h.input? ⟨4, 0⟩ = some q ∧ q.generation = 1 ∧ q.value = some w ∧ w = v := by
  have hfirst : (((start "adding").run adding).graph.evaluate .standard).toOption.map
      (fun gr => (gr.1.input? ⟨4, 0⟩).map fun p => (p.generation, p.value)) =
      some (some (1, some (.scalar 1))) := by
    decide +kernel
  have hlast : (((start "adding").run (adding ++ .evaluate .standard :: regained)).graph.evaluate
      .standard).toOption.map
      (fun gr => (gr.1.input? ⟨4, 0⟩).map fun p => (p.generation, p.value)) =
      some (some (1, some (.scalar 1))) := by
    decide +kernel
  obtain ⟨g, r, hg, hread⟩ := Graph.exists_of_evaluate hfirst
  obtain ⟨p, hp, hx⟩ := Option.map_eq_some_iff.mp hread
  obtain ⟨hγ, hv⟩ := Prod.mk.inj hx
  obtain ⟨h, r', hh, hread'⟩ := Graph.exists_of_evaluate hlast
  obtain ⟨q, hq, hx'⟩ := Option.map_eq_some_iff.mp hread'
  obtain ⟨hγ', hw⟩ := Prod.mk.inj hx'
  refine ⟨g, r, h, r', p, q, _, _, hg, hh, hp, hγ, hv, hq, hγ', hw, ?_⟩
  have htell := (generations_tell "adding" (by simp [adding, Edit.OnOneGraph]) hg hp hv).2 regained
    (by simp [regained, Edit.OnOneGraph]) .standard h r' hh ⟨4, 0⟩ q _ hq hw (hγ'.trans hγ.symm)
    (.inr ⟨rfl, by simp [regained]⟩)
  -- no kernel of the catalogue declares an output with a value
  exact htell.resolve_right (not_or.mpr
    ⟨Graph.not_showsDeclared (fun e _ => Builtin.blank e) g _,
      Graph.not_showsDeclared (fun e _ => Builtin.blank e) h _⟩)

/-- An input for scalars. -/
def heard : Port :=
  .input "X" (.single .scalar)

/-- A kernel that fails, with an output that is declared with a value, feeds a memoized node that
hands on what it is fed. -/
def feigning : List (Edit Scripted) := [
  .add (.ofKernel ⟨⟨[], [(Port.output "A" .scalar).withFallback (.scalar 5)]⟩, [], .fails "down"⟩),
  .add ⟨⟨⟨[heard], [.output "Y" .scalar]⟩, [], .forwards⟩, none, some .memoized⟩,
  .connect ⟨2, 0⟩ ⟨4, 0⟩]

/-- The disconnected input shows its fallback at the generation at which it has shown the declared
value, so the node keeps the declared value on its output. -/
theorem generations_blur : ∃ g r h r' n,
    ((start "feigning").run feigning).graph.evaluate .standard = .ok (g, r) ∧
    ((start "feigning").run (feigning ++ [.evaluate .standard, .disconnect ⟨4, 0⟩])).graph.evaluate
      .standard = .ok (h, r') ∧
    g.input? ⟨4, 0⟩ = some (heard.write (.scalar 5) 0) ∧
    h.input? ⟨4, 0⟩ = some (heard.write (.scalar 0) 0) ∧
    h.node? 4 = some n ∧ r'.reused = [n.id] ∧ n.outputs.map Port.value = [some (.scalar 5)] := by
  have hfirst : (((start "feigning").run feigning).graph.evaluate .standard).toOption.map
      (fun gr => gr.1.input? ⟨4, 0⟩) = some (some (heard.write (.scalar 5) 0)) := by
    decide +kernel
  have hlast : (((start "feigning").run
      (feigning ++ [.evaluate .standard, .disconnect ⟨4, 0⟩])).graph.evaluate
      .standard).toOption.map (fun gr => (gr.1.input? ⟨4, 0⟩,
        (gr.1.node? 4).map fun n => (gr.2.reused, n.outputs.map Port.value))) =
      some (some (heard.write (.scalar 0) 0), some ([4], [some (.scalar 5)])) := by
    decide +kernel
  obtain ⟨g, r, hg, hp⟩ := Graph.exists_of_evaluate hfirst
  obtain ⟨h, r', hh, hread⟩ := Graph.exists_of_evaluate hlast
  obtain ⟨hq, hnode⟩ := Prod.mk.inj hread
  obtain ⟨n, hn, hx⟩ := Option.map_eq_some_iff.mp hnode
  obtain ⟨hreused, hout⟩ := Prod.mk.inj hx
  refine ⟨g, r, h, r', n, hg, hh, hp, hq, hn, ?_, hout⟩
  rw [hreused, (Graph.mem_of_node? hn).2]

end Session

end TextureFlow

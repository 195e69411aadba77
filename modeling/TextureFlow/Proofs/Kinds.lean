import Mathlib
import TextureFlow.Proofs.Dataflow
import TextureFlow.Proofs.Origin

/-!
# Ports hold values of their kinds

The kinds of values are looked at in three places: when a connection is made, when a fallback is
set, and at every turn of a node. For kernels that do what their layouts say, the last one never
finds anything: an output holds nothing but values of the kind it declares, and an input shows and
falls back on nothing but values that it accepts. So a node fails for nothing but an input without a
value or a failure of its own kernel.

* `TypedKernels`: kernels that do what their layouts say;
* `Node.Regular`: what then holds of every node;
* `Graph.Passed.regular`, `Graph.Passed.failures_own`: a pass keeps it, and reports no other
  failures;
* `Session.Everywhere.regular_run`: it holds of every node of every session.
-/

namespace TextureFlow

/-! ## Kernels -/

/-- A computation that delivers what is promised, or fails for a reason of its own. -/
def Delivers {α : Type} (promise : α → Prop) : Except ComputeError α → Prop
  | .ok a => promise a
  | .error e => ∃ f, e = .failed f

namespace Delivers

variable {α β : Type} {promise : α → Prop} {next : β → Prop}

/-- A computation goes on with what was promised of its first part. -/
theorem bind {m : Except ComputeError α} (h : Delivers promise m) {f : α → Except ComputeError β}
    (hf : ∀ a, promise a → Delivers next (f a)) : Delivers next (m >>= f) := by
  cases m with
  | ok a => exact hf a h
  | error e => exact h

theorem ite {c : Prop} [Decidable c] {m m' : Except ComputeError α} (h : c → Delivers promise m)
    (h' : ¬ c → Delivers promise m') : Delivers promise (if c then m else m') := by
  split
  · exact h ‹_›
  · exact h' ‹_›

end Delivers

/-- An error that blames no value for its kind. -/
def ComputeError.Own (e : ComputeError) : Prop :=
  (∃ index name, e = .missingInput index name) ∨ ∃ f, e = .failed f

namespace Layout

/-- The kinds that the inputs accept. -/
def accepted (l : Layout) : List Accepted :=
  l.inputs.map Port.accepted

/-- Values that the inputs accept, one for each. -/
def Admits (l : Layout) (values : Inputs) : Prop :=
  List.Forall₂ (fun (a : Accepted) (v : Value) => a.contains v.kind = true) l.accepted values

/-- Values of the kinds that the outputs declare, one for each. -/
def Declares (l : Layout) (values : List Value) : Prop :=
  l.outputs.map Port.accepted = values.map fun v => .single v.kind

end Layout

namespace Port

/-- An output that holds nothing but a value of the kind it declares. -/
def Emits (p : Port) : Prop :=
  ∀ v, p.value = some v → p.emits? = some v.kind

/-- An input that shows and falls back on nothing but values it accepts. -/
structure Admits (p : Port) : Prop where
  value : ∀ v, p.value = some v → p.accepts v.kind = true
  fallback : ∀ v, p.fallback = some v → p.accepts v.kind = true

end Port

/-- Kernels that do what their layouts say: inputs fall back on what they accept, accepted values
are computed to values of the declared kinds, and no parameter changes the layout. -/
class TypedKernels (κ : Type) [Kernel κ] : Prop where
  admits : ∀ k : κ, ∀ p ∈ (Kernel.layout k).inputs, p.Admits
  blank : ∀ k : κ, ∀ p ∈ (Kernel.layout k).outputs, p.value = none
  delivers : ∀ (k : κ) (values : Inputs), (Kernel.layout k).Admits values →
    Delivers (Kernel.layout k).Declares (Kernel.compute k values)
  setParameter : ∀ (k k' : κ) (name : String) (v : ParamValue),
    Kernel.setParameter k name v = .ok k' → Kernel.layout k' = Kernel.layout k

/-! ## Ports -/

/-- The kind that is accepted, if there is no other. -/
def Accepted.only? : Accepted → Option ValueKind
  | .single k => some k
  | .anyOf _ => none

namespace Port

theorem emits?_eq_only? {p : Port} (h : p.direction = .output) :
    p.emits? = p.accepted.only? := by
  cases ha : p.accepted <;> simp [emits?, Accepted.only?, h, ha]

theorem emits_write {p : Port} {v : Value} (h : p.emits? = some v.kind) (generation : Nat) :
    (p.write v generation).Emits := by
  intro w hw
  obtain rfl := Option.some.inj hw
  exact h

/-- New values are of the kinds that the outputs declare, if they were before they were written. -/
theorem emits_writeAll (revision : Nat) {ports : List Port} {values : List Value}
    (h : ports.map emits? = values.map fun v => some v.kind) :
    ∀ q ∈ writeAll revision ports values, q.Emits := by
  induction ports generalizing revision values with
  | nil =>
    obtain rfl := List.map_eq_nil_iff.mp h.symm
    exact fun q hq => absurd hq List.not_mem_nil
  | cons p ports ih =>
    cases values with
    | nil => cases h
    | cons v values =>
      obtain ⟨hp, hrest⟩ := List.cons.inj h
      exact List.forall_mem_cons.mpr ⟨emits_write hp _, ih (revision + 1) hrest⟩

/-- The zero of a kind is of that kind. -/
theorem emits_fillZeros (revision : Nat) {ports : List Port} (h : ∀ p ∈ ports, p.Emits) :
    ∀ q ∈ fillZeros revision ports, q.Emits := by
  induction ports generalizing revision with
  | nil => exact h
  | cons p ports ih =>
    obtain ⟨hp, hrest⟩ := List.forall_mem_cons.mp h
    cases hv : p.value with
    | some v =>
      rw [fillZeros, hv]
      exact List.forall_mem_cons.mpr ⟨hp, ih revision hrest⟩
    | none =>
      rw [fillZeros, hv]
      refine List.forall_mem_cons.mpr ⟨?_, ih (revision + 1) hrest⟩
      cases hk : p.emits? with
      | none => exact hp
      | some k => exact emits_write (by rw [hk, k.kind_zero]) _

theorem Admits.reset {p : Port} (h : p.Admits) : p.reset.Admits :=
  ⟨h.fallback, h.fallback⟩

/-- What flows into an input is accepted if the feeding output emits a kind that is accepted. -/
theorem Admits.resolve {p : Port} (h : p.Admits) {feed : Option Port}
    (hf : ∀ q, feed = some q → q.Emits ∧ ∀ k, q.emits? = some k → p.accepts k = true) :
    (p.resolve feed).Admits := by
  cases feed with
  | none => exact h.reset
  | some q =>
    obtain ⟨hq, ha⟩ := hf q rfl
    exact ⟨fun v hv => ha _ (hq v hv), h.fallback⟩

end Port

/-! ## Nodes -/

namespace Node

variable {κ : Type}

/-- A node whose ports hold nothing but values of their kinds. -/
structure Typed (n : Node κ) : Prop where
  outputs : ∀ p ∈ n.outputs, p.Emits
  inputs : ∀ p ∈ n.inputs, p.Admits

variable [Kernel κ] {n m : Node κ}

/-- A node with ports of the kinds that its kernel declares. -/
structure Regular (n : Node κ) : Prop extends Typed n where
  made : n.MadeFrom (.ofKernel n.kernel)

omit [Kernel κ] in
theorem Typed.congr (h : n.Typed) (hi : m.inputs = n.inputs) (ho : m.outputs = n.outputs) :
    m.Typed :=
  ⟨ho ▸ h.outputs, hi ▸ h.inputs⟩

/-- A node of the same frame has the ports of the same kernel, or of one with the same layout. -/
theorem MadeFrom.of_layout (h : n.MadeFrom (.ofKernel n.kernel)) (hf : m.frame = n.frame)
    (hl : Kernel.layout m.kernel = Kernel.layout n.kernel) : m.MadeFrom (.ofKernel m.kernel) := by
  have hin : m.inputs.map Port.face = n.inputs.map Port.face := congrArg Frame.inputs hf
  have hout : m.outputs.map Port.face = n.outputs.map Port.face := congrArg Frame.outputs hf
  have hfaces : (Draft.ofKernel m.kernel).inputFaces = (Draft.ofKernel n.kernel).inputFaces ∧
      (Draft.ofKernel m.kernel).outputFaces = (Draft.ofKernel n.kernel).outputFaces := by
    simp only [Draft.inputFaces, Draft.outputFaces, Draft.ofKernel, hl, and_self]
  constructor
  case ports => rw [Node.ports, List.map_append, hin, hout, h.inputs, h.outputs, hfaces.1, hfaces.2]
  case inputs => rw [hin, h.inputs, hfaces.1]
  case outputs => rw [hout, h.outputs, hfaces.2]

/-- The inputs accept what the kernel's layout accepts. -/
theorem MadeFrom.map_accepted (h : n.MadeFrom (.ofKernel n.kernel)) :
    n.inputs.map Port.accepted = (Kernel.layout n.kernel).accepted := by
  have hf := congrArg (List.map Face.accepted) h.inputs
  simpa [Draft.inputFaces, Draft.ofKernel, Layout.accepted, Port.face, Function.comp_def] using hf

/-- An output accepts what the kernel's layout says of one. -/
theorem MadeFrom.exists_output (h : n.MadeFrom (.ofKernel n.kernel)) {p : Port}
    (hp : p ∈ n.outputs) : p.direction = .output ∧
      ∃ q ∈ (Kernel.layout n.kernel).outputs, p.accepted = q.accepted := by
  have hface : p.face ∈ (Draft.ofKernel n.kernel).outputFaces :=
    h.outputs ▸ List.mem_map_of_mem hp
  obtain ⟨q, hq, hqp⟩ := List.mem_map.mp hface
  exact ⟨(congrArg Face.direction hqp).symm, q, hq, (congrArg Face.accepted hqp).symm⟩

/-- Declared values are of the kinds that the outputs emit. -/
theorem MadeFrom.map_emits? (h : n.MadeFrom (.ofKernel n.kernel)) {outs : List Value}
    (hd : (Kernel.layout n.kernel).Declares outs) :
    n.outputs.map Port.emits? = outs.map fun v => some v.kind := by
  have haccepted : n.outputs.map Port.accepted = outs.map fun v => .single v.kind := by
    have hf := congrArg (List.map Face.accepted) h.outputs
    rw [← hd]
    simpa [Draft.outputFaces, Draft.ofKernel, Port.face, Function.comp_def] using hf
  calc n.outputs.map Port.emits?
      = n.outputs.map fun p => p.accepted.only? :=
        List.map_congr_left fun p hp => Port.emits?_eq_only? (h.exists_output hp).1
    _ = (n.outputs.map Port.accepted).map Accepted.only? := by rw [List.map_map]; rfl
    _ = outs.map fun v => some v.kind := by rw [haccepted, List.map_map]; rfl

/-- What the inputs of a node hold when they are ready is what its kernel accepts. -/
theorem MadeFrom.admits (h : n.MadeFrom (.ofKernel n.kernel)) {values : List Value}
    (hf : n.Feeds values) : (Kernel.layout n.kernel).Admits values := by
  obtain ⟨hready, hvalues⟩ := hf
  rw [Layout.Admits, ← h.map_accepted, List.forall₂_map_left_iff]
  refine List.forall₂_iff_get.mpr ⟨by simpa using congrArg List.length hvalues, fun i hi hi' => ?_⟩
  obtain ⟨v, hv, ha⟩ := hready _ (List.getElem_mem hi)
  have hvi : n.inputs[i].value = some values[i] := by
    have := congrArg (·[i]?) hvalues
    simpa [List.getElem?_eq_getElem hi, List.getElem?_eq_getElem hi'] using this
  obtain rfl := Option.some.inj (hv.symm.trans hvi)
  exact ha

/-! ### Edits -/

/-- A fallback that the input does not accept is refused, so edits keep nodes typed. -/
theorem Typed.apply (h : n.Typed) {e : NodeEdit} (he : e.apply n = .ok m) : m.Typed := by
  cases edited_of_apply he with
  | @fallback index v p q place fits edit =>
    have hold := h.inputs p (List.mem_of_getElem? place)
    have hedited : Port.Admits { p with fallback := some v } :=
      ⟨hold.value, fun w hw => Option.some.inj hw ▸ fits⟩
    refine ⟨h.outputs, fun x hx => ?_⟩
    rcases List.mem_or_eq_of_mem_set hx with hx | rfl
    · exact h.inputs x hx
    · rcases edit with rfl | rfl
      · exact hedited
      · exact hedited.reset
  | _ => exact h.congr rfl rfl

variable [TypedKernels κ]

/-- A new node is regular. -/
theorem regular_draft (d : Draft κ) (id : NodeId) : (d.node id).Regular := by
  have hnew : (Node.create id d.kernel).Typed := by
    constructor
    case outputs =>
      intro p hp v hv
      obtain ⟨q, hq, rfl⟩ := List.mem_map.mp hp
      rw [TypedKernels.blank d.kernel q hq] at hv
      cases hv
    case inputs =>
      intro p hp
      obtain ⟨q, hq, rfl⟩ := List.mem_map.mp hp
      have ha := TypedKernels.admits d.kernel q hq
      exact ⟨ha.value, ha.fallback⟩
  have hid : (d.node id).id = id := congrArg Frame.id (Draft.frame_node d id)
  have hmade : (d.node id).MadeFrom d := .of_frame (by rw [hid])
  obtain ⟨name, strategy, h⟩ := exists_node_eq d id
  rw [h] at hmade ⊢
  exact ⟨hnew.congr rfl rfl, hmade.ports, hmade.inputs, hmade.outputs⟩

theorem layout_apply {e : NodeEdit} (h : e.apply n = .ok m) :
    Kernel.layout m.kernel = Kernel.layout n.kernel := by
  cases edited_of_apply h with
  | parameter set => exact TypedKernels.setParameter _ _ _ _ set
  | _ => rfl

/-- Edits and new numbers leave nodes regular. -/
theorem stable_regular : Node.Stable (κ := κ) Node.Regular where
  renumber _ _ h := ⟨h.toTyped.congr rfl rfl, h.made.ports, h.made.inputs, h.made.outputs⟩
  apply _ _ _ h he := ⟨h.toTyped.apply he, h.made.of_layout (frame_apply he) (layout_apply he)⟩

/-! ### A turn -/

/-- A regular node computes values of the kinds that its outputs declare. -/
theorem map_emits?_of_result (h : n.MadeFrom (.ofKernel n.kernel)) {outs : List Value}
    (hr : n.result = .ok outs) : n.outputs.map Port.emits? = outs.map fun v => some v.kind := by
  cases hg : Port.gather 0 n.inputs with
  | error e => rw [result, hg] at hr; cases hr
  | ok values =>
    rw [result, hg] at hr
    have hd := TypedKernels.delivers n.kernel values (h.admits (feeds_iff.mpr hg))
    rw [(outcome_eq_ok hr).1] at hd
    exact h.map_emits? hd

/-- A turn leaves outputs with nothing but values of their kinds, whatever the inputs hold. -/
theorem emits_conclude (h : n.MadeFrom (.ofKernel n.kernel)) (ho : ∀ p ∈ n.outputs, p.Emits)
    (memoization zeroFill : Bool) (revision : Nat) (ran : Bool) :
    ∀ p ∈ (n.conclude zeroFill revision ran (n.judge memoization)).outputs, p.Emits := by
  cases hj : n.judge memoization with
  | computed outs =>
    exact Port.emits_writeAll revision (map_emits?_of_result h (result_of_computed hj))
  | reused => exact ho
  | failed e =>
    cases zeroFill with
    | false => exact ho
    | true => exact Port.emits_fillZeros revision ho

/-- A regular node has no faults but inputs without a value and failures of its kernel. -/
theorem Regular.own_of_fault (h : n.Regular) {e : ComputeError} (hf : n.Fault e) : e.Own := by
  cases hf with
  | input place before refuses =>
    cases refuses with
    | missing empty => exact .inl ⟨_, _, rfl⟩
    | kind held strange =>
      have ha := (h.inputs _ (List.mem_of_getElem? place)).value _ held
      exact absurd (ha.symm.trans strange) (by simp)
  | compute feeds fails =>
    have hd := TypedKernels.delivers n.kernel _ (h.made.admits feeds)
    rw [fails] at hd
    exact .inr hd
  | count feeds gives strange =>
    have hd := TypedKernels.delivers n.kernel _ (h.made.admits feeds)
    rw [gives] at hd
    have hl := congrArg List.length (h.made.map_emits? hd)
    exact absurd (by simpa using hl.symm) strange
  | @kind values outs i p v k feeds gives count place before emits strange =>
    have hd := TypedKernels.delivers n.kernel _ (h.made.admits feeds)
    rw [gives] at hd
    -- the port and the value at the position of the fault agree
    obtain ⟨hp, hv⟩ := List.getElem?_zip_eq_some.mp place
    have hi := congrArg (·[i]?) (h.made.map_emits? hd)
    simp only [List.getElem?_map, hp, hv, Option.map_some, emits, Option.some.injEq] at hi
    exact absurd hi.symm strange

end Node

/-! ## A pass -/

namespace Graph

variable {κ : Type}

/-- What feeds an input is an output of a kind that the input accepts. -/
theorem fits_of_feed? {g : Graph κ} (hw : g.WellFormed) {target : InputPlace} {p : Port}
    (hf : g.feed? target = some p) :
    (∃ m ∈ g.nodes, p ∈ m.outputs) ∧ ∃ n ∈ g.nodes, ∃ q k, n.id = target.node ∧
      n.inputs[target.input]? = some q ∧ p.emits? = some k ∧ q.accepts k = true := by
  obtain ⟨c, hto, hf'⟩ := Option.bind_eq_some_iff.mp hf
  obtain ⟨hc, rfl⟩ := mem_of_connectionTo? hto
  obtain ⟨m, hm, n, hn, p', q, k, hmi, hni, hp, hq, hk, ha⟩ := hw.fits c hc
  have hsource : g.node? c.source.node = some m := hmi ▸ node?_of_mem hw.nodup hm
  rw [feed?_of_mem hw hc hsource, hp] at hf
  obtain rfl := Option.some.inj hf
  exact ⟨⟨m, hm, List.mem_of_getElem? hp⟩, n, hn, q, k, hni, hq, hk, ha⟩

namespace Passed

variable [Kernel κ] [TypedKernels κ] {settings : Settings} {g h : Graph κ} {r : Report}
  {verdict : NodeId → Verdict} {base top : NodeId → Nat} {n : Node κ}

omit [TypedKernels κ] in
/-- At its turn a node has the ports of its kernel. -/
theorem made_fed (h : Graph κ) (hn : n.MadeFrom (.ofKernel n.kernel)) :
    (h.fed n.restart).MadeFrom (.ofKernel (h.fed n.restart).kernel) :=
  hn.of_layout ((Node.frame_resolve ..).trans (Node.frame_restart n)) rfl

/-- After a pass outputs hold nothing but values of their kinds. -/
theorem emits (hp : Passed settings g h r verdict base top) (hg : ∀ n ∈ g.nodes, n.Regular) :
    ∀ m ∈ h.nodes, ∀ p ∈ m.outputs, p.Emits := by
  intro m hm
  obtain ⟨n, hn, -, rfl⟩ := hp.exists_turned hm
  exact Node.emits_conclude (made_fed h (hg n hn).made) (hg n hn).outputs settings.memoization
    settings.zeroFill (base n.id) _

/-- At its turn a node is regular, for connections fit. -/
theorem regular_fed (hp : Passed settings g h r verdict base top)
    (hg : ∀ n ∈ g.nodes, n.Regular) (hn : n ∈ g.nodes) : (h.fed n.restart).Regular := by
  refine ⟨⟨(hg n hn).outputs, fun q hq => ?_⟩, made_fed h (hg n hn).made⟩
  obtain ⟨i, hi, rfl⟩ := List.mem_mapIdx.mp hq
  refine ((hg n hn).inputs _ (List.getElem_mem hi)).resolve fun p hf => ?_
  obtain ⟨⟨m, hm, hpm⟩, n', hn', q, k, hid, hq, hk, ha⟩ := fits_of_feed? hp.after hf
  refine ⟨hp.emits hg m hm p hpm, fun k' hk' => ?_⟩
  obtain rfl := Option.some.inj (hk.symm.trans hk')
  -- the connection fits the node that is there after the pass, which has the same faces
  have hid : n'.id = n.id := hid
  have hnode := hp.node_eq hn
  rw [← hid, node?_of_mem hp.after.nodup hn'] at hnode
  have hframe : n'.frame = n.frame :=
    (congrArg Node.frame (Option.some.inj hnode)).trans (frame_turned ..)
  have hface := congrArg (fun f : Frame => f.inputs[i]?) hframe
  have hi : n.inputs[i]? = some n.restart.inputs[i] := List.getElem?_eq_getElem hi
  simp only [Node.frame, List.getElem?_map, hq, hi, Option.map_some] at hface
  exact (Port.accepts_of_face (Option.some.inj hface) k).symm.trans ha

/-- A pass leaves regular nodes regular. -/
theorem regular (hp : Passed settings g h r verdict base top) (hg : ∀ n ∈ g.nodes, n.Regular) :
    ∀ m ∈ h.nodes, m.Regular := by
  intro m hm
  have hout := hp.emits hg m hm
  obtain ⟨n, hn, -, rfl⟩ := hp.exists_turned hm
  have hfed := hp.regular_fed hg hn
  refine ⟨⟨hout, ?_⟩, hfed.made.of_layout (Node.frame_conclude ..) ?_⟩
  · rw [inputs_turned]
    exact hfed.inputs
  · rw [turned, Node.kernel_conclude]

/-- A pass over regular nodes blames no value for its kind. -/
theorem failures_own (hp : Passed settings g h r verdict base top)
    (hg : ∀ n ∈ g.nodes, n.Regular) {id : NodeId} {e : ComputeError}
    (he : (id, e) ∈ r.failures) : e.Own := by
  have hid : id ∈ g.ids := hp.mem_ids.mpr (.inr (.inr ⟨e, he⟩))
  obtain ⟨n, hn, rfl⟩ := List.mem_map.mp hid
  have hv := Verdict.error?_eq_some_iff.mp ((hp.mem_failures hn).mp he)
  rw [hp.verdict_eq hn] at hv
  exact (hp.regular_fed hg hn).own_of_fault (Node.fault_of_result (Node.result_of_failed hv))

end Passed

end Graph

/-! ## Sessions -/

namespace Session

variable {κ : Type} [Kernel κ] [TypedKernels κ] {s : Session κ}

theorem Everywhere.regular_step (h : s.Everywhere Node.Regular) (hw : s.WellFormed) (e : Edit κ) :
    (s.step e).2.Everywhere Node.Regular := by
  by_cases he : e.IsPass
  · obtain ⟨settings, rfl⟩ := he
    simp only [Session.step, Session.evaluate]
    cases hr : s.graph.evaluate settings with
    | error err => exact h
    | ok gr =>
      obtain ⟨verdict, base, top, hp⟩ := Graph.evaluate_spec hw.graph hr
      exact h.setGraph (hp.regular h.graph)
  · exact h.step Node.stable_regular he fun d id _ => Node.regular_draft d id

/-- All nodes of every session are regular. -/
theorem Everywhere.regular_run (h : s.Everywhere Node.Regular) (hw : s.WellFormed)
    (es : List (Edit κ)) : (s.run es).Everywhere Node.Regular := by
  induction es generalizing s with
  | nil => exact h
  | cons e es ih => exact ih (h.regular_step hw e) (wellFormed_step hw e)

omit [Kernel κ] [TypedKernels κ] in
theorem Everywhere.nodes {P : Node κ → Prop} (h : s.Everywhere P) : ∀ n ∈ s.nodes, P n := by
  intro n hn
  rcases List.mem_append.mp hn with hn | hn
  · obtain ⟨g, hg, hn⟩ := List.mem_flatMap.mp hn
    exact h.graphs g hg n hn
  · exact h.held n (List.reduceOption_mem_iff.mp hn)

end Session

end TextureFlow

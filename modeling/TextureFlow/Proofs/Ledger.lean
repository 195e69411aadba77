import Mathlib
import TextureFlow.Proofs.Memo

/-!
# Stamps over a history

Every graph gives generations from a clock of its own, and nodes carry what they were given from one
graph to another. The ledger of a history says for every graph which values its passes stamped with
which generation. It is read off the passes alone, so it can be stated without a look at memos.

* `Graph.Passed.fresh`, `Graph.Passed.traced`: a pass stamps each new number once, and leaves nodes
  traced;
* `Session.Clocked.evaluate`: every graph of a session stamps a number at most once;
* `Session.Kept.run`: all nodes, held ones too, are traced through what *some* graph stamped, if no
  kernel declares an output with a value;
* `Session.Clocked.anyOf_single`: in a session on one graph, no number was given to two values.
-/

namespace TextureFlow

variable {κ : Type} [Kernel κ]

/-! ## A pass -/

/-- The outputs of a node that a pass may write, as far as its report tells: all of a node that
computed, and those of another node that held nothing. -/
def Report.writes (r : Report) (id : NodeId) (p : Port) : Prop :=
  id ∈ r.computed ∨ p.value = none

namespace Graph

/-- What a pass from `g` to `h` stamped. -/
def puts (g h : Graph κ) (r : Report) : Stamps :=
  fun γ v => ∃ m ∈ g.nodes, ∃ n ∈ h.nodes, n.id = m.id ∧
    Port.puts (r.writes m.id) m.outputs n.outputs γ v

omit [Kernel κ] in
/-- What feeds an input is an output of the graph. -/
theorem stamped_feed? {T : Stamps} {h : Graph κ}
    (hs : ∀ n ∈ h.nodes, ∀ p ∈ n.outputs, p.Stamped T) {target : InputPlace} {q : Port}
    (hq : h.feed? target = some q) : q.Stamped T := by
  obtain ⟨n, hn, hq⟩ := mem_of_feed? hq
  exact hs n hn q hq

namespace Passed

variable {settings : Settings} {g h : Graph κ} {r : Report} {verdict : NodeId → Verdict}
  {base top : NodeId → Nat} {n : Node κ}

/-- What a turn may write is what the report tells. -/
theorem writes_eq (hp : Passed settings g h r verdict base top) (hn : n ∈ g.nodes) :
    ((h.fed n.restart).judge settings.memoization).writes = r.writes n.id := by
  funext p
  rw [Verdict.writes, Report.writes, hp.mem_computed hn, hp.verdict_eq hn]

/-- What the turn of a node writes. -/
theorem written (hp : Passed settings g h r verdict base top) (hn : n ∈ g.nodes) :
    Port.Written (r.writes n.id) (base n.id) n.outputs (top n.id)
      (h.turned settings (base n.id) n.restart).outputs := by
  have hw := Node.written_conclude settings.zeroFill (base n.id)
    ((h.fed n.restart).runs settings.memoization) (n := h.fed n.restart)
    (v := (h.fed n.restart).judge settings.memoization) fun outs hj =>
      Node.length_of_result (Node.result_of_computed hj)
  rw [← hp.writes_eq hn, hp.top_eq hn, hp.verdict_eq hn]
  exact hw

/-- What a pass stamped, said by what became of the nodes. -/
theorem puts_iff (hp : Passed settings g h r verdict base top) {γ : Nat} {v : Value} :
    g.puts h r γ v ↔ ∃ n ∈ g.nodes, Port.puts (r.writes n.id) n.outputs
      (h.turned settings (base n.id) n.restart).outputs γ v := by
  constructor
  · rintro ⟨m, hm, n, hn, hid, hput⟩
    have hnode := hp.node_eq hm
    rw [← hid, node?_of_mem hp.after.nodup hn] at hnode
    rw [Option.some.inj hnode, hid] at hput
    exact ⟨m, hm, hput⟩
  · rintro ⟨m, hm, hput⟩
    obtain ⟨hn, hid⟩ := mem_of_node? (hp.node_eq hm)
    exact ⟨m, hm, _, hn, hid, hput⟩

/-- A pass takes generations that its graph has not given before, and gives each to one value. -/
theorem fresh (hp : Passed settings g h r verdict base top) :
    Stamps.Fresh g.revision h.revision (g.puts h r) := by
  constructor
  case above =>
    intro γ v hv
    obtain ⟨n, hn, hput⟩ := hp.puts_iff.mp hv
    have hbase := (hp.ran.within _ (hp.mem_order hn)).1
    exact hbase.trans_lt ((hp.written hn).fresh.above γ v hput)
  case upTo =>
    intro γ v hv
    obtain ⟨n, hn, hput⟩ := hp.puts_iff.mp hv
    have htop := (hp.ran.within _ (hp.mem_order hn)).2
    exact ((hp.written hn).fresh.upTo γ v hput).trans htop
  case single =>
    intro γ v w hv hw
    obtain ⟨n, hn, hput⟩ := hp.puts_iff.mp hv
    obtain ⟨m, hm, hput'⟩ := hp.puts_iff.mp hw
    by_cases he : n.id = m.id
    · obtain rfl := List.inj_on_of_nodup_map hp.before.nodup hn hm he
      exact (hp.written hn).fresh.single γ v w hput hput'
    · -- the turns of two nodes take generations apart from each other
      have hn' := (hp.written hn).fresh
      have hm' := (hp.written hm).fresh
      have : Std.Symm fun u v => top u ≤ base v ∨ top v ≤ base u := ⟨fun _ _ => Or.symm⟩
      have hapart := (hp.ran.apart.imp (S := fun u v => top u ≤ base v ∨ top v ≤ base u)
        Or.inl).forall (hp.mem_order hn) (hp.mem_order hm) he
      have hn1 := hn'.above γ v hput
      have hn2 := hn'.upTo γ v hput
      have hm1 := hm'.above γ w hput'
      have hm2 := hm'.upTo γ w hput'
      omega

variable {T : Stamps}

/-- After a pass every output holds what it held before or what the pass stamped. -/
theorem stamped (hp : Passed settings g h r verdict base top)
    (ht : ∀ n ∈ g.nodes, n.Traced T) :
    ∀ n ∈ h.nodes, ∀ p ∈ n.outputs, p.Stamped (T ⊔ g.puts h r) := by
  intro n hn p hpn
  obtain ⟨m, hm, -, rfl⟩ := hp.exists_turned hn
  exact ((hp.written hm).stamped (ht m hm).outputs p hpn).mono
    (sup_le_sup_left (fun γ v hput => hp.puts_iff.mpr ⟨m, hm, hput⟩) T)

/-- What feeds a node after a pass explains its inputs. -/
theorem resolved (hp : Passed settings g h r verdict base top) (ht : ∀ n ∈ g.nodes, n.Traced T)
    (n : Node κ) : (h.fed n).Resolved (T ⊔ g.puts h r) :=
  Node.resolved_resolve (fun _ _ hq => stamped_feed? (hp.stamped ht) hq) n

/-- At its turn a node is traced through what the pass stamps. -/
theorem traced_fed (ht : ∀ n ∈ g.nodes, n.Traced T) (hn : n ∈ g.nodes) :
    (h.fed n.restart).Traced (T ⊔ g.puts h r) := by
  have hrestart : n.restart.Traced T := (ht n hn).congr rfl rfl rfl rfl
  exact (hrestart.mono le_sup_left).resolve _

/-- A pass leaves all nodes traced. -/
theorem traced (hp : Passed settings g h r verdict base top) (ht : ∀ n ∈ g.nodes, n.Traced T) :
    ∀ n ∈ h.nodes, n.Traced (T ⊔ g.puts h r) := by
  intro n hn
  obtain ⟨m, hm, -, rfl⟩ := hp.exists_turned hn
  refine (traced_fed ht hm).conclude (hp.resolved ht _) fun γ v hput => .inr ?_
  rw [hp.writes_eq hm] at hput
  exact hp.puts_iff.mpr ⟨m, hm, hput⟩

/-- If no generation was given to two values before a pass, its verdicts are honest. -/
theorem honest (hp : Passed settings g h r verdict base top) (hT : T.Single)
    (hlo : ∀ γ v, T γ v → γ ≤ g.revision) (ht : ∀ n ∈ g.nodes, n.Traced T) (hn : n ∈ g.nodes) :
    (h.fed n.restart).Honest (verdict n.id) := by
  rw [hp.verdict_eq hn]
  exact Node.honest_judge (hT.sup hlo hp.fresh) (traced_fed ht hn) (hp.resolved ht _) _

/-- After an honest verdict a node holds what computing gives. -/
theorem map_value_turned (hp : Passed settings g h r verdict base top) (hn : n ∈ g.nodes)
    (hv : (h.fed n.restart).Honest (verdict n.id)) {outs : List Value}
    (hres : (h.fed n.restart).result = .ok outs) :
    (h.turned settings (base n.id) n.restart).outputs.map Port.value = outs.map some := by
  have hvalues := hv.map_value_conclude hres settings.zeroFill (base n.id)
    ((h.fed n.restart).runs settings.memoization)
  rwa [hp.verdict_eq hn] at hvalues

end Passed

end Graph

/-! ## A session -/

theorem Node.stable_traced (T : Stamps) : Node.Stable (κ := κ) (Node.Traced T) where
  renumber _ _ h := h.congr rfl rfl rfl rfl
  apply _ _ _ h he := h.forget (Node.apply_eq_ok he).1 (Node.apply_eq_ok he).2

/-- What was stamped by any of several graphs. -/
def Stamps.anyOf (L : Nat → Stamps) : Stamps :=
  fun γ v => ∃ a, L a γ v

theorem Stamps.anyOf_mono {L M : Nat → Stamps} (h : L ≤ M) : anyOf L ≤ anyOf M :=
  fun _ _ ⟨a, ha⟩ => ⟨a, h a _ _ ha⟩

namespace Session

/-- What each graph stamps by an edit. -/
def puts (s : Session κ) (e : Edit κ) : Nat → Stamps :=
  fun a γ v => s.current = a ∧ ∃ settings h r, e = .evaluate settings ∧
    s.graph.evaluate settings = .ok (h, r) ∧ s.graph.puts h r γ v

/-- What each graph stamps in a history. -/
def ledger : Session κ → List (Edit κ) → Nat → Stamps
  | _, [] => ⊥
  | s, e :: es => s.puts e ⊔ ledger (s.step e).2 es

theorem puts_of_not_isPass (s : Session κ) {e : Edit κ} (he : ¬ e.IsPass) : s.puts e = ⊥ := by
  funext a γ v
  refine eq_bot_iff.mpr ?_
  rintro ⟨-, settings, -, -, rfl, -⟩
  exact he ⟨settings, rfl⟩

theorem puts_evaluate {s : Session κ} {settings : Settings} {h : Graph κ} {r : Report}
    (he : s.graph.evaluate settings = .ok (h, r)) {a γ : Nat} {v : Value} :
    s.puts (.evaluate settings) a γ v ↔ s.current = a ∧ s.graph.puts h r γ v := by
  refine and_congr_right fun _ => ⟨?_, fun hv => ⟨settings, h, r, rfl, he, hv⟩⟩
  rintro ⟨settings', h', r', hs, he', hv⟩
  cases hs
  rw [he] at he'
  cases he'
  exact hv

theorem puts_refused {s : Session κ} {settings : Settings} {err : EvaluationError}
    (he : s.graph.evaluate settings = .error err) : s.puts (.evaluate settings) = ⊥ := by
  funext a γ v
  refine eq_bot_iff.mpr ?_
  rintro ⟨-, settings', h', r', hs, he', -⟩
  cases hs
  rw [he] at he'
  cases he'

/-- What a pass stamped goes into the ledger of its graph. -/
theorem anyOf_sup_puts_le {s : Session κ} {settings : Settings} {h : Graph κ} {r : Report}
    (he : s.graph.evaluate settings = .ok (h, r)) (L : Nat → Stamps) :
    Stamps.anyOf L ⊔ s.graph.puts h r ≤ Stamps.anyOf (L ⊔ s.puts (.evaluate settings)) := by
  rintro γ v (⟨a, ha⟩ | hv)
  · exact ⟨a, .inl ha⟩
  · exact ⟨s.current, .inr ((puts_evaluate he).mpr ⟨rfl, hv⟩)⟩

section

variable {P : (Nat → Stamps) → Session κ → Prop} {E : Edit κ → Prop}

/-- What a pass keeps with what it stamps, and any other edit as it is, every edit keeps. A pass
that is refused changes nothing and stamps nothing. -/
theorem keep_step
    (pass : ∀ L s settings g r, P L s → s.graph.evaluate settings = .ok (g, r) →
      P (L ⊔ s.puts (.evaluate settings)) (s.setGraph g))
    (edit : ∀ L s e, P L s → ¬ e.IsPass → E e → P L (s.step e).2)
    {L : Nat → Stamps} {s : Session κ} {e : Edit κ} (h : P L s) (hE : E e) :
    P (L ⊔ s.puts e) (s.step e).2 := by
  by_cases he : e.IsPass
  · obtain ⟨settings, rfl⟩ := he
    simp only [step, evaluate]
    cases hr : s.graph.evaluate settings with
    | error err =>
      rw [puts_refused hr, sup_bot_eq]
      exact h
    | ok gr => exact pass L s settings gr.1 gr.2 h hr
  · rw [puts_of_not_isPass s he, sup_bot_eq]
    exact edit L s e h he hE

/-- What every edit keeps with what it stamps, every history keeps with its ledger. -/
theorem keep_run
    (step : ∀ L s e, P L s → E e → P (L ⊔ s.puts e) (Session.step s e).2)
    {L : Nat → Stamps} {s : Session κ} {es : List (Edit κ)} (h : P L s) (hE : ∀ e ∈ es, E e) :
    P (L ⊔ s.ledger es) (s.run es) := by
  induction es generalizing L s with
  | nil => exact (sup_bot_eq L).symm ▸ h
  | cons e es ih =>
    obtain ⟨he, hes⟩ := List.forall_mem_cons.mp hE
    have hrest := ih (step L s e h he) hes
    rwa [sup_assoc] at hrest

end

/-- A ledger that agrees with the clocks: no graph stamped a number twice or beyond its clock. -/
structure Clocked (L : Nat → Stamps) (s : Session κ) : Prop where
  wellFormed : s.WellFormed
  single : ∀ a, (L a).Single
  upTo : ∀ a γ v, L a γ v → ∃ ρ, s.revisions[a]? = some ρ ∧ γ ≤ ρ

namespace Clocked

variable {L : Nat → Stamps} {s : Session κ}

omit [Kernel κ] in
theorem start (name : String) : Clocked ⊥ (Session.start name : Session κ) where
  wellFormed := .start name
  single _ _ _ _ h := h.elim
  upTo _ _ _ h := h.elim

omit [Kernel κ] in
/-- What the current graph stamped is not beyond its clock. -/
theorem le_revision (h : Clocked L s) {γ : Nat} {v : Value} (hv : L s.current γ v) :
    γ ≤ s.graph.revision := by
  obtain ⟨ρ, hρ, hle⟩ := h.upTo _ γ v hv
  rw [revisions_current h.wellFormed.current] at hρ
  rwa [Option.some.inj hρ]

/-- A pass adds what it stamps to the ledger of its graph. -/
theorem evaluate (h : Clocked L s) {settings : Settings} {g : Graph κ} {r : Report}
    (he : s.graph.evaluate settings = .ok (g, r)) :
    Clocked (L ⊔ s.puts (.evaluate settings)) (s.setGraph g) := by
  obtain ⟨verdict, base, top, hp⟩ := Graph.evaluate_spec h.wellFormed.graph he
  have hrev : (s.setGraph g).revisions = s.revisions.set s.current g.revision := by
    simp [revisions, setGraph]
  have hlen : s.current < s.revisions.length := by
    rw [length_revisions]
    exact h.wellFormed.current
  constructor
  case wellFormed =>
    have hw := h.wellFormed.evaluate settings
    rwa [Session.evaluate, he] at hw
  case single =>
    intro a
    by_cases ha : s.current = a
    · subst ha
      have hsingle := (h.single s.current).sup (fun γ v => h.le_revision) hp.fresh
      intro γ v w hv hw
      exact hsingle γ v w (hv.imp_right fun hv => ((puts_evaluate he).mp hv).2)
        (hw.imp_right fun hw => ((puts_evaluate he).mp hw).2)
    · -- a graph that has no pass stamps nothing
      have hold : ∀ γ v, (L ⊔ s.puts (.evaluate settings)) a γ v → L a γ v := fun γ v hv =>
        hv.resolve_right fun hv => ha hv.1
      exact fun γ v w hv hw => h.single a γ v w (hold γ v hv) (hold γ w hw)
  case upTo =>
    -- the clock of the current graph goes forward, and the others stand still
    intro a γ v hv
    rw [hrev]
    rcases hv with hv | hv
    · obtain ⟨ρ, hρ, hle⟩ := h.upTo a γ v hv
      by_cases ha : s.current = a
      · subst ha
        exact ⟨g.revision, List.getElem?_set_self hlen, (h.le_revision hv).trans hp.ran.forward⟩
      · exact ⟨ρ, by rw [List.getElem?_set_ne ha, hρ], hle⟩
    · obtain ⟨rfl, hput⟩ := (puts_evaluate he).mp hv
      exact ⟨g.revision, List.getElem?_set_self hlen, hp.fresh.upTo γ v hput⟩

/-- An edit that is not a pass leaves the clocks alone. -/
theorem edit (h : Clocked L s) {e : Edit κ} (he : ¬ e.IsPass) : Clocked L (s.step e).2 where
  wellFormed := wellFormed_step h.wellFormed e
  single := h.single
  upTo a γ v hv := by
    obtain ⟨ρ, hρ, hle⟩ := h.upTo a γ v hv
    have ha := (List.getElem?_eq_some_iff.mp hρ).1
    refine ⟨ρ, ?_, hle⟩
    rw [revisions_step s he, List.getElem?_append_left ha, hρ]

omit [Kernel κ] in
/-- In a session on one graph, no number was given to two values. -/
theorem anyOf_single (h : Clocked L s) (hl : s.graphs.length = 1) : (Stamps.anyOf L).Single := by
  have hzero : ∀ a γ v, L a γ v → a = 0 := by
    intro a γ v hv
    obtain ⟨ρ, hρ, -⟩ := h.upTo a γ v hv
    have ha := (List.getElem?_eq_some_iff.mp hρ).1
    rw [length_revisions, hl] at ha
    exact Nat.lt_one_iff.mp ha
  rintro γ v w ⟨a, hv⟩ ⟨b, hw⟩
  obtain rfl := hzero a γ v hv
  obtain rfl := hzero b γ w hw
  exact h.single 0 γ v w hv hw

omit [Kernel κ] in
/-- In a session on one graph, nothing was stamped beyond the clock. -/
theorem anyOf_le (h : Clocked L s) (hl : s.graphs.length = 1) {γ : Nat} {v : Value}
    (hv : Stamps.anyOf L γ v) : γ ≤ s.graph.revision := by
  obtain ⟨a, hv⟩ := hv
  obtain ⟨ρ, hρ, hle⟩ := h.upTo a γ v hv
  have ha := (List.getElem?_eq_some_iff.mp hρ).1
  have hc := h.wellFormed.current
  rw [length_revisions, hl] at ha
  rw [hl] at hc
  obtain rfl : a = s.current := by omega
  exact h.le_revision hv

end Clocked

/-- A ledger that is right: it agrees with the clocks, and every node is traced through what some
graph stamped. -/
structure Kept (L : Nat → Stamps) (s : Session κ) : Prop extends Clocked L s where
  traced : s.Everywhere (Node.Traced (Stamps.anyOf L))

namespace Kept

variable {L : Nat → Stamps} {s : Session κ}

theorem start (name : String) : Kept ⊥ (Session.start name : Session κ) where
  toClocked := .start name
  traced := .start name

/-- A pass adds what it stamps to the ledger of its graph. -/
theorem evaluate (h : Kept L s) {settings : Settings} {g : Graph κ} {r : Report}
    (he : s.graph.evaluate settings = .ok (g, r)) :
    Kept (L ⊔ s.puts (.evaluate settings)) (s.setGraph g) where
  toClocked := h.toClocked.evaluate he
  traced := by
    obtain ⟨verdict, base, top, hp⟩ := Graph.evaluate_spec h.wellFormed.graph he
    have hold : s.Everywhere (Node.Traced (Stamps.anyOf (L ⊔ s.puts (.evaluate settings)))) :=
      h.traced.mono fun n hn => hn.mono (Stamps.anyOf_mono le_sup_left)
    refine hold.setGraph fun n hn => ?_
    exact (hp.traced h.traced.graph n hn).mono (anyOf_sup_puts_le he L)

/-- Every edit keeps the ledger right. -/
theorem step (h : Kept L s) {e : Edit κ} (hb : e.Blank) : Kept (L ⊔ s.puts e) (s.step e).2 :=
  keep_step (E := Edit.Blank) (fun _ _ _ _ _ h => h.evaluate) (fun _ _ _ h he hb =>
    ⟨h.toClocked.edit he, h.traced.step (Node.stable_traced _) he fun d id hd =>
      Node.traced_draft (hb d hd) id⟩) h hb

/-- Every history keeps the ledger right. -/
theorem run (h : Kept L s) {es : List (Edit κ)} (hb : ∀ e ∈ es, e.Blank) :
    Kept (L ⊔ s.ledger es) (s.run es) :=
  keep_run (fun _ _ _ h hb => h.step hb) h hb

/-- In a session on one graph every verdict of a pass is honest. -/
theorem honest (h : Kept L s) (hl : s.graphs.length = 1) {settings : Settings} {g : Graph κ}
    {r : Report} {verdict : NodeId → Verdict} {base top : NodeId → Nat}
    (hp : s.graph.Passed settings g r verdict base top) {n : Node κ} (hn : n ∈ s.graph.nodes) :
    (g.fed n.restart).Honest (verdict n.id) :=
  hp.honest (h.anyOf_single hl) (fun _ _ => h.anyOf_le hl) h.traced.graph hn

end Kept

end Session

end TextureFlow

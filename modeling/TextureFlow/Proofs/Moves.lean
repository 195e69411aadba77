import Mathlib
import TextureFlow.Catalogue.Basic
import TextureFlow.Proofs.Ledger

/-!
# Nodes that move between graphs

Every graph has a clock of its own, and a node that moves takes its memo along. So two graphs may
give one number to two values, and a node that was fed the first in one graph takes the second for
the same in another. `Session.reused_spec` says that nothing else goes wrong: a node that kept its
outputs holds what its kernel made of remembered inputs, and the present inputs differ from those
only where such a clash of two clocks is behind it. `Session.stale_moving` is a history in which it
happens.
-/

namespace TextureFlow

/-- Two graphs gave a generation to two values. -/
def Clash (L : Nat → Stamps) (γ : Nat) (v w : Value) : Prop :=
  ∃ a b, a ≠ b ∧ L a γ v ∧ L b γ w

/-- A generation that stands for two values is a clash, unless some graph gave it twice. -/
theorem clash_of_single {L : Nat → Stamps} (hL : ∀ a, (L a).Single) {γ : Nat} {v w : Value}
    (hv : Stamps.anyOf L γ v) (hw : Stamps.anyOf L γ w) (hne : v ≠ w) : Clash L γ v w := by
  obtain ⟨a, hv⟩ := hv
  obtain ⟨b, hw⟩ := hw
  refine ⟨a, b, ?_, hv, hw⟩
  rintro rfl
  exact hne (hL a γ v w hv hw)

namespace Session

section

variable {κ : Type} [Kernel κ]

theorem ledger_concat (s : Session κ) (es : List (Edit κ)) (e : Edit κ) :
    s.ledger (es ++ [e]) = s.ledger es ⊔ (s.run es).puts e := by
  induction es generalizing s with
  | nil => exact (sup_bot_eq _).trans (bot_sup_eq _).symm
  | cons x es ih =>
    rw [List.cons_append, ledger, ih, ledger, sup_assoc]
    rfl

/-- A node that kept its outputs, in terms of a ledger that is right after the pass. -/
theorem Kept.exists_past {L : Nat → Stamps} {s : Session κ} (h : Kept L s) {settings : Settings}
    {g : Graph κ} {r : Report} (he : s.graph.evaluate settings = .ok (g, r)) {n : Node κ}
    (hn : n ∈ g.nodes) (hr : n.id ∈ r.reused) :
    ∃ now past outs : List Value, n.inputs.map Port.value = now.map some ∧
      n.outputs.map Port.value = outs.map some ∧ Kernel.compute n.kernel past = .ok outs ∧
      past.length = now.length ∧
      ∀ (i : Nat) (v w : Value), now[i]? = some v → past[i]? = some w → v ≠ w →
        ∃ γ, n.inputGenerations[i]? = some γ ∧
          Clash (L ⊔ s.puts (.evaluate settings)) γ v w := by
  obtain ⟨verdict, base, top, hp⟩ := Graph.evaluate_spec h.wellFormed.graph he
  obtain ⟨m, hm, hid, rfl⟩ := hp.exists_turned hn
  have hj : (g.fed m.restart).judge settings.memoization = .reused := by
    rw [← hp.verdict_eq hm]
    exact Verdict.isReused_iff.mp ((hp.mem_reused hm).mp (hid ▸ hr))
  obtain ⟨now, past, outs, hg, hnow, hpast, hc, ho⟩ := Node.exists_of_reused
    (Graph.Passed.traced_fed h.traced.graph hm) (hp.resolved h.traced.graph m.restart) hj
  have hsame : g.turned settings (base m.id) m.restart =
      (g.fed m.restart).conclude settings.zeroFill (base m.id)
        ((g.fed m.restart).runs settings.memoization) .reused := by
    rw [Graph.turned, hj]
  rw [hsame]
  have hlen := hpast.lengths.2.trans hnow.lengths.2.symm
  refine ⟨now, past, outs, Port.map_value_of_gather hg, ho, (Node.outcome_eq_ok hc).1, hlen,
    fun i v w hv hw hne => ?_⟩
  obtain ⟨γ, hγ, hTv, hTw⟩ := hnow.conflict hpast hv hw hne
  -- what the pass stamped and what was known before is all in the ledger after the pass
  have hany := anyOf_sup_puts_le he L
  exact ⟨γ, hγ, clash_of_single (h.evaluate he).single (hany _ _ hTv) (hany _ _ hTw) hne⟩

end

/-- A node of the catalogue that kept its outputs, in a session on any number of graphs, holds what
its kernel made of inputs remembered from a former pass. It is current exactly if its kernel makes
the same of its present inputs, and these differ from the remembered ones only where two graphs gave
one generation to the two values. -/
theorem reused_spec (name : String) (es : List (Edit Builtin)) {settings : Settings}
    {g : Graph Builtin} {r : Report}
    (he : ((start name).run es).graph.evaluate settings = .ok (g, r)) {n : Node Builtin}
    (hn : n ∈ g.nodes) (hr : n.id ∈ r.reused) :
    ∃ now past outs : List Value, n.inputs.map Port.value = now.map some ∧
      n.outputs.map Port.value = outs.map some ∧ Kernel.compute n.kernel past = .ok outs ∧
      (n.Current ↔ Kernel.compute n.kernel now = Kernel.compute n.kernel past) ∧
      past.length = now.length ∧
      ∀ (i : Nat) (v w : Value), now[i]? = some v → past[i]? = some w → v ≠ w →
        ∃ γ, n.inputGenerations[i]? = some γ ∧
          Clash ((start name).ledger (es ++ [.evaluate settings])) γ v w := by
  have hk := (Kept.start name).run fun e (_ : e ∈ es) => Builtin.blank e
  obtain ⟨now, past, outs, hnow, hout, hc, hlen, hclash⟩ := hk.exists_past he hn hr
  rw [ledger_concat, ← bot_sup_eq (ledger (start name) es)]
  refine ⟨now, past, outs, hnow, hout, hc, ?_, hlen, hclash⟩
  rw [Node.current_iff hnow hout, hc]

/-- A node inverts a white image in one graph, moves to another, and is fed a black one there. Both
images are the first that their graph stamped. -/
def moving : List (Edit Builtin) := [
  .add (.ofKernel (.imageSource (.filled ⟨1, 1⟩ .white))), .add (.ofKernel .invert),
  .connect ⟨2, 0⟩ ⟨4, 0⟩, .evaluate .standard, .remove 4, .focus 1 none,
  .add (.ofKernel (.imageSource (.filled ⟨1, 1⟩ .black))), .insert 0, .connect ⟨6, 0⟩ ⟨7, 0⟩]

/-- The pass after it keeps the inverted white image, though the input is black. -/
theorem pass_moving : ∃ g r n, ((start "moving").run moving).graph.evaluate .standard = .ok (g, r) ∧
    n ∈ g.nodes ∧ n.id ∈ r.reused ∧ n.kernel = .invert ∧
    n.inputs.map Port.value = [some (.image (.filled ⟨1, 1⟩ .black))] ∧
    n.outputs.map Port.value = [some (.image (.filled ⟨1, 1⟩ .black))] := by
  have hpass : (((start "moving").run moving).graph.evaluate .standard).toOption.bind (fun gr =>
      (gr.1.node? 7).map fun n => (gr.2.reused, n.kernel, n.inputs.map Port.value,
        n.outputs.map Port.value)) =
      some ([7], .invert, [some (.image (.filled ⟨1, 1⟩ .black))],
        [some (.image (.filled ⟨1, 1⟩ .black))]) := by
    decide +kernel
  cases he : ((start "moving").run moving).graph.evaluate .standard with
  | error e => rw [he] at hpass; cases hpass
  | ok gr =>
    obtain ⟨g, r⟩ := gr
    rw [he] at hpass
    obtain ⟨n, hn, hx⟩ := Option.map_eq_some_iff.mp hpass
    simp only [Prod.mk.injEq] at hx
    obtain ⟨hm, hid⟩ := Graph.mem_of_node? hn
    exact ⟨g, r, n, rfl, hm, by simp [hx.1, hid], hx.2.1, hx.2.2.1, hx.2.2.2⟩

/-- A node that kept its outputs need not be current. -/
theorem stale_moving : ∃ g r n,
    ((start "moving").run moving).graph.evaluate .standard = .ok (g, r) ∧
    n ∈ g.nodes ∧ n.id ∈ r.reused ∧ ¬ n.Current := by
  obtain ⟨g, r, n, he, hn, hr, hk, hin, hout⟩ := pass_moving
  refine ⟨g, r, n, he, hn, hr, ?_⟩
  have hne : Kernel.compute n.kernel [.image (.filled ⟨1, 1⟩ .black)] ≠
      .ok [.image (.filled ⟨1, 1⟩ .black)] := by
    rw [hk]
    decide +kernel
  exact fun h => hne ((Node.current_iff hin hout).mp h)

/-- At the node that moved, the number `1` was given to both images, by one graph each. -/
theorem reused_spec_moving : ∃ g r n,
    ((start "moving").run moving).graph.evaluate .standard = .ok (g, r) ∧
    n ∈ g.nodes ∧ n.id ∈ r.reused ∧
    ∃ now past outs : List Value, n.inputs.map Port.value = now.map some ∧
      n.outputs.map Port.value = outs.map some ∧ Kernel.compute n.kernel past = .ok outs ∧
      (n.Current ↔ Kernel.compute n.kernel now = Kernel.compute n.kernel past) ∧
      past.length = now.length ∧
      ∀ (i : Nat) (v w : Value), now[i]? = some v → past[i]? = some w → v ≠ w →
        ∃ γ, n.inputGenerations[i]? = some γ ∧
          Clash ((start "moving").ledger (moving ++ [.evaluate .standard])) γ v w := by
  obtain ⟨g, r, n, he, hn, hr, -⟩ := pass_moving
  exact ⟨g, r, n, he, hn, hr, reused_spec "moving" moving he hn hr⟩

end Session

end TextureFlow

/-
Plugin keys on a keyboard.

A plugin key that names both its plugin and a method calls the plugin with a snippet from
which the key can be read back, with all that its definition holds besides; any other plugin
key does nothing (`build_plugin`).
-/
import KeyLayout.Proofs.Definition.Plugin
import KeyLayout.Proofs.Key.Finish
import KeyLayout.Proofs.Keyboard.Build

namespace KeyLayout

open Document Json

namespace Keyboard

/-- **A plugin is called with the key itself.**  The floating-point numbers that the key keeps for
the plugin have to be read as they are written; nothing else is asked of the key. -/
theorem build_plugin {text : String} {d : Definition} {dimensions : Dimensions} {keys : KeySet}
    {k : PluginKey} (hread : DefinitionFormat.json.read text = .ok d)
    (hvalid : d.validate = .ok dimensions) (hkeys : d.keys = some keys) (hk : k ∈ keys.plugin)
    (path : FilePath) (catalog : Catalog) :
    (∀ m ∈ k.extra, m.1 ∉ PluginKey.declaredNames) ∧
    ∃ p, (build d path catalog).1.grid.at? k.frame.anchor = some p ∧
      (k.plugin.isSome ∧ k.method.isSome → ∃ snippet, p.key.value = .plugin snippet ∧
        ((∀ m ∈ k.extra, ∀ x, Value.Contains (.float x) m.2 → ReadsBack x) →
          PluginKey.ofSnippet snippet = .ok k)) ∧
      (¬(k.plugin.isSome ∧ k.method.isSome) → p.key.value = .empty) := by
  have hsound : k.Sound := read_ensures Definition.read_sound hread keys hkeys k hk
  have hspec : KeySpec.plugin k ∈ d.specs := by
    rw [Definition.specs, hkeys]
    exact List.mem_append_right _ (List.mem_map_of_mem hk)
  obtain ⟨-, -, -, -, hnodup⟩ := Definition.validate_eq_ok_iff.mp hvalid
  refine ⟨hsound.names, placement (.forFile catalog.symbol? path d.flags.symbolMargin) (.plugin k),
    ?_, ?_, ?_⟩
  · rw [build_grid hvalid]
    exact at?_after _ _ _ hnodup hspec
  · intro hnames
    refine ⟨k.snippet, ?_, PluginKey.ofSnippet_snippet hsound⟩
    rw [placement, KeySpec.finish_plugin, if_pos hnames]
  · intro hnames
    rw [placement, KeySpec.finish_plugin, if_neg hnames]

/-- A key whose symbol has its other name, with nested members that need escapes and a point. -/
theorem build_plugin_nested_members :
    let text := "\x7b\"Grid\":\x7b\"rows\":1,\"cols\":2\x7d,\"Keys\":\x7b\"PluginKeys\":[" ++
      "\x7b\"pluginName\":\"p\",\"methodName\":\"m\",\"symbolName\":\"s\"," ++
      "\"args\":\x7b\"b\":[1,2.5],\"a\":\"\\\"\"\x7d\x7d]\x7d\x7d"
    let args : Value := .record [("a", .text "\""), ("b", .list [.int 1, .float 2.5])]
    let key : PluginKey :=
      ⟨{ KeyFrame.blank with symbol := some "s" }, some "p", some "m", [("args", args)]⟩
    let d : Definition := ⟨some ⟨1, 2⟩, ⟨false, false, none, none⟩, some ⟨[], [], [], [key]⟩⟩
    DefinitionFormat.json.read text = .ok d ∧ d.validate = .ok ⟨1, 2⟩ ∧
      ∃ p snippet, (build d "home.json" CatalogTables.empty.catalog).1.grid.at? ⟨0, 0⟩ = some p ∧
        p.key.value = .plugin snippet ∧ PluginKey.ofSnippet snippet = .ok key := by
  intro text args key d
  have hread : DefinitionFormat.json.read text = .ok d := by decide +kernel
  have hvalid : d.validate = .ok ⟨1, 2⟩ := by decide
  have hfloat : ReadsBack 2.5 := ⟨_, _, rfl⟩
  have hfloats : ∀ m ∈ key.extra, ∀ x, Value.Contains (.float x) m.2 → ReadsBack x := by
    intro m hm x hx
    obtain rfl := List.mem_singleton.mp hm
    rcases hx with _ | _ | ⟨hmember, hx⟩
    rcases List.mem_pair.mp hmember with rfl | rfl
    · cases hx
    · rcases hx with _ | ⟨hitem, hx⟩
      rcases List.mem_pair.mp hitem with rfl | rfl
      · cases hx
      · cases hx
        exact hfloat
  obtain ⟨-, p, hp, hacts, -⟩ := build_plugin hread hvalid rfl List.mem_cons_self "home.json"
    CatalogTables.empty.catalog
  obtain ⟨snippet, hvalue, hback⟩ := hacts ⟨rfl, rfl⟩
  exact ⟨hread, hvalid, p, snippet, hp, hvalue, hback hfloats⟩

end Keyboard

end KeyLayout

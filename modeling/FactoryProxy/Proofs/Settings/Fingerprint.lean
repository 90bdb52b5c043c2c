import FactoryProxy.Proofs.Digest.Collision
import FactoryProxy.Proofs.Json.Layout
import FactoryProxy.Settings.Resolved
import Mathlib.Data.List.Basic

/-!
Contract: settings are told apart by the text that their fingerprint is taken of.

Owns: the fingerprinted text, the settings behind it, and what two settings with
the same fingerprint have in common.
-/

namespace FactoryProxy.ResolvedSettings

theorem isPlain_toJson (settings : ResolvedSettings) : settings.toJson.isPlain = true := by
  have targets : Json.Value.arePlain (settings.scanFor.map .text) = true :=
    Json.Value.arePlain_map _ (fun _ => rfl)
  have directories : Json.Value.arePlain
      (settings.sourceDirectories.map (fun path => .text path.text)) = true :=
    Json.Value.arePlain_map _ (fun _ => rfl)
  have patterns : Json.Value.arePlain (settings.exclude.map .text) = true :=
    Json.Value.arePlain_map _ (fun _ => rfl)
  simp only [toJson, Json.Value.isPlain, Json.Value.membersArePlain, targets, directories,
    patterns, Bool.and_self]

theorem toJson_injective {left right : ResolvedSettings} (same : left.toJson = right.toJson) :
    left = right := by
  have textInjective : Function.Injective Json.Value.text :=
    fun _ _ sameText => Json.Value.text.inj sameText
  have pathInjective : Function.Injective (fun path : Path => Json.Value.text path.text) :=
    fun _ _ samePath => congrArg Path.mk (Json.Value.text.inj samePath)
  obtain ⟨scanFor, sourceDirectories, proxyNamespace, ⟨proxyDirectory⟩, exclude⟩ := left
  obtain ⟨otherScanFor, otherDirectories, otherNamespace, ⟨otherDirectory⟩, otherExclude⟩ := right
  simp only [toJson, Json.Value.object.injEq, List.cons.injEq, Prod.mk.injEq,
    Json.Value.list.injEq, Json.Value.text.injEq, true_and, and_true] at same
  obtain ⟨sameTargets, sameDirectories, rfl, rfl, samePatterns⟩ := same
  rw [textInjective.list_map sameTargets, pathInjective.list_map sameDirectories,
    textInjective.list_map samePatterns]

/-- The text of which the fingerprint is the digest. -/
def fingerprinted (settings : ResolvedSettings) : ByteArray :=
  settings.toJson.compactText.toUTF8

theorem fingerprinted_injective {left right : ResolvedSettings}
    (same : left.fingerprinted = right.fingerprinted) : left = right := by
  have sameText : left.toJson.compactText = right.toJson.compactText := by
    unfold fingerprinted at same
    rw [String.toUTF8_eq_toByteArray, String.toUTF8_eq_toByteArray] at same
    exact String.toByteArray_inj.mp same
  exact toJson_injective
    (Json.compactText_injective left.isPlain_toJson right.isPlain_toJson sameText)

theorem fingerprint_eq_ofBytes (settings : ResolvedSettings) :
    settings.fingerprint = Digest.ofBytes settings.fingerprinted :=
  rfl

theorem eq_iff_fields (left right : ResolvedSettings) :
    left = right ↔
      left.scanFor = right.scanFor ∧
      left.sourceDirectories.map Path.text = right.sourceDirectories.map Path.text ∧
      left.proxyNamespace = right.proxyNamespace ∧
      left.proxyDirectory.text = right.proxyDirectory.text ∧
      left.exclude = right.exclude := by
  have textInjective : Function.Injective Path.text :=
    fun _ _ sameText => congrArg Path.mk sameText
  constructor
  · rintro rfl
    exact ⟨rfl, rfl, rfl, rfl, rfl⟩
  · obtain ⟨scanFor, sourceDirectories, proxyNamespace, proxyDirectory, exclude⟩ := left
    rintro ⟨rfl, sameDirectories, rfl, sameDirectory, rfl⟩
    obtain rfl : sourceDirectories = right.sourceDirectories :=
      textInjective.list_map sameDirectories
    obtain rfl : proxyDirectory = right.proxyDirectory := textInjective sameDirectory
    rfl

/-- Settings are written as the same text only if all their texts and lists are
the same, so settings with the same fingerprint are the same or their texts
collide under the digest. -/
theorem same_writing_iff_same_fields (left right : ResolvedSettings) :
    (left.toJson.compactText = right.toJson.compactText ↔
      left.scanFor = right.scanFor ∧
      left.sourceDirectories.map Path.text = right.sourceDirectories.map Path.text ∧
      left.proxyNamespace = right.proxyNamespace ∧
      left.proxyDirectory.text = right.proxyDirectory.text ∧
      left.exclude = right.exclude) ∧
    (left.fingerprint = right.fingerprint ↔
      left = right ∨ Digest.Collide left.fingerprinted right.fingerprinted) := by
  have sameWriting : left.toJson.compactText = right.toJson.compactText ↔ left = right := by
    constructor
    · intro same
      exact fingerprinted_injective (congrArg String.toUTF8 same)
    · rintro rfl
      rfl
  have sameMessage : left.fingerprinted = right.fingerprinted ↔ left = right :=
    ⟨fingerprinted_injective, congrArg fingerprinted⟩
  refine ⟨sameWriting.trans (eq_iff_fields left right), ?_⟩
  rw [fingerprint_eq_ofBytes, fingerprint_eq_ofBytes, Digest.ofBytes_eq_iff_collide, sameMessage]

end FactoryProxy.ResolvedSettings

import Mathlib.Data.List.Basic
import FactoryProxy.Proofs.Php.Deciding
import FactoryProxy.Proofs.Reflection.Statements

/-!
Contract: files made of namespaces.

A section is a namespace with a block, or one that holds for the statements behind it. What it
declares is decided by its own statements: the scope of the sections before it is given up, so
their imports are seen in none of the others, also where several sections have one name.

Owns: sections, files made of them, and what such files declare.
Does not own: how the sections of a text are read.
-/

namespace FactoryProxy

namespace Php

/-- The statements begin with a namespace, which holds for all that follow, or are one namespace
with a block. The body of the first form may start further namespaces. -/
inductive IsSection : List Statement → Prop where
  | start (name : String) (body : List Statement) : IsSection (.namespaceStart name :: body)
  | block (name : String) (body : List Statement) : IsSection [.namespaceBlock name body]

instance : DecidablePred IsSection
  | .namespaceStart name :: body => isTrue (.start name body)
  | [.namespaceBlock name body] => isTrue (.block name body)
  | [] => isFalse nofun
  | .namespaceBlock _ _ :: _ :: _ => isFalse nofun
  | .imports _ :: _ => isFalse nofun
  | .declaration _ :: _ => isFalse nofun
  | .nameless :: _ => isFalse nofun

/-- The statements of the file are those of the sections in order. Each section is a file of its
own, so the lines may differ. -/
structure SourceFile.IsMadeOf (whole : SourceFile) (sections : List SourceFile) : Prop where
  areSections : ∀ part ∈ sections, IsSection part.statements
  isWhole : Statement.unlinedAll whole.statements =
    sections.flatMap (fun part => Statement.unlinedAll part.statements)

instance (whole : SourceFile) (sections : List SourceFile) : Decidable (whole.IsMadeOf sections) :=
  decidable_of_iff
    ((∀ part ∈ sections, IsSection part.statements) ∧ Statement.unlinedAll whole.statements =
      sections.flatMap (fun part => Statement.unlinedAll part.statements))
    ⟨fun ⟨areSections, isWhole⟩ => ⟨areSections, isWhole⟩,
      fun ⟨areSections, isWhole⟩ => ⟨areSections, isWhole⟩⟩

end Php

namespace Reflection

open Php (Statement SourceFile IsSection)

/-- A section declares the same wherever it stands, and in no other scope. -/
theorem declarations_of_section {statements : List Statement} (isSection : IsSection statements)
    (file : Path) (scope other : Name.NameScope) :
    declarations file scope statements = declarations file other statements := by
  cases isSection with
  | start name body => rfl
  | block name body => rfl

theorem isSection_unlinedAll {statements : List Statement} (isSection : IsSection statements) :
    IsSection (Statement.unlinedAll statements) := by
  cases isSection with
  | start name body => exact .start name _
  | block name body => exact .block name _

/-- Sections one after another declare what each of them declares alone. -/
theorem declarations_flatMap (file : Path) (scope alone : Name.NameScope)
    {sections : List (List Statement)} (areSections : ∀ part ∈ sections, IsSection part) :
    declarations file scope sections.flatten = sections.flatMap (declarations file alone) := by
  induction sections generalizing scope with
  | nil => rfl
  | cons first rest inductionHypothesis =>
      obtain ⟨isFirst, areRest⟩ := List.forall_mem_cons.mp areSections
      rw [List.flatten_cons, declarations_append, inductionHypothesis _ areRest,
        declarations_of_section isFirst file scope alone, List.flatMap_cons]

/-- What a file declares, without the file and the lines. -/
def contents (file : Path) (source : SourceFile) : List ClassDeclaration :=
  (declarationsOf file source).map ClassDeclaration.content

theorem contents_eq (file : Path) (source : SourceFile) :
    contents file source = declarations ⟨""⟩ .global (Statement.unlinedAll source.statements) :=
  declarations_content file .global source.statements

/-- A file made of sections declares what the sections declare as files of their own. -/
theorem contents_of_isMadeOf {whole : SourceFile} {sections : List SourceFile}
    (made : whole.IsMadeOf sections) (file elsewhere : Path) :
    contents file whole = sections.flatMap (contents elsewhere) := by
  have areSections : ∀ part ∈ sections.map (fun part => Statement.unlinedAll part.statements),
      IsSection part := by
    intro part member
    obtain ⟨source, isSource, rfl⟩ := List.mem_map.mp member
    exact isSection_unlinedAll (made.areSections source isSource)
  rw [contents_eq, made.isWhole, List.flatMap_def, declarations_flatMap ⟨""⟩ .global .global
    areSections, List.flatMap_map]
  exact List.flatMap_congr (fun part _ => (contents_eq elsewhere part).symm)

/-- A file made of sections declares in order what the sections declare as files of their own:
the same names, kinds, modifiers, parents, interfaces and constructors. So another section in the
place of one, whatever it imports, changes nothing that the others declare. -/
theorem sections_declare_as_alone {whole : SourceFile} {sections : List SourceFile}
    (made : whole.IsMadeOf sections) (file elsewhere : Path) :
    contents file whole = sections.flatMap (contents elsewhere) ∧
    ∀ before replaced after, sections = before ++ replaced :: after → ∀ replacement other,
      SourceFile.IsMadeOf other (before ++ replacement :: after) →
      ∃ earlier later, contents file whole = earlier ++ contents elsewhere replaced ++ later ∧
        contents file other = earlier ++ contents elsewhere replacement ++ later := by
  refine ⟨contents_of_isMadeOf made file elsewhere, ?_⟩
  rintro before replaced after rfl replacement other madeOther
  have split (part : SourceFile) : (before ++ part :: after).flatMap (contents elsewhere) =
      before.flatMap (contents elsewhere) ++ contents elsewhere part ++
        after.flatMap (contents elsewhere) := by
    rw [List.flatMap_append, List.flatMap_cons, List.append_assoc]
  refine ⟨before.flatMap (contents elsewhere), after.flatMap (contents elsewhere), ?_, ?_⟩
  · rw [contents_of_isMadeOf made file elsewhere, split]
  · rw [contents_of_isMadeOf madeOther file elsewhere, split]

example : (contents ⟨"both.php"⟩ (.ofText
    ("<?php namespace App \x7b use Vendor\\Base; class First extends Base \x7b\x7d \x7d " ++
      "namespace App \x7b class Second extends Base \x7b\x7d \x7d"))).map
        ClassDeclaration.parent = [some "Vendor\\Base", some "App\\Base"] := by
  decide +kernel

/-! ## Two sections of one namespace -/

/-- A section with an import, below which are the parent of its class and a default value. -/
def importing : String :=
  "namespace App;\nuse Vendor\\Base;\n" ++
    "class First extends Base \x7b function __construct($mode = Base::A) \x7b\x7d \x7d\n"

def withoutImport : String :=
  "namespace App;\nclass First extends Base \x7b\x7d\n"

def following : String :=
  "namespace App;\n" ++
    "class Second extends Base \x7b function __construct($mode = Base::B) \x7b\x7d \x7d\n"

def fileOf (text : String) : SourceFile :=
  .ofText ("<?php\n" ++ text)

/-- The import of the first section does not reach the class of the second. -/
theorem import_hidden_from_second_section :
    contents ⟨"both.php"⟩ (fileOf (importing ++ following)) =
        [fileOf importing, fileOf following].flatMap (contents ⟨"one.php"⟩) ∧
      (∃ earlier later,
        contents ⟨"both.php"⟩ (fileOf (importing ++ following)) =
            earlier ++ contents ⟨"one.php"⟩ (fileOf importing) ++ later ∧
          contents ⟨"both.php"⟩ (fileOf (withoutImport ++ following)) =
            earlier ++ contents ⟨"one.php"⟩ (fileOf withoutImport) ++ later) ∧
      (contents ⟨"both.php"⟩ (fileOf (importing ++ following))).map ClassDeclaration.parent =
        [some "Vendor\\Base", some "App\\Base"] := by
  have made : (fileOf (importing ++ following)).IsMadeOf
      [fileOf importing, fileOf following] := by decide +kernel
  have madeOther : (fileOf (withoutImport ++ following)).IsMadeOf
      [fileOf withoutImport, fileOf following] := by decide +kernel
  obtain ⟨inOrder, unchanged⟩ := sections_declare_as_alone made ⟨"both.php"⟩ ⟨"one.php"⟩
  exact ⟨inOrder, unchanged [] (fileOf importing) [fileOf following] rfl _ _ madeOther,
    by decide +kernel⟩

end Reflection

end FactoryProxy

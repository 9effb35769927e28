import HighlightGrammar.Proofs.Variables.Template

/-!
# What a scan for placeholders finds

A site of a text is a way of writing it as something before a placeholder, the placeholder and
something after it. Looking at every position of a text gives all its sites. The scan goes from left
to right and skips what it has found, and still it finds every site once: behind its first brace a
placeholder reads as a literal, so no other site starts inside it. -/
namespace HighlightGrammar.Placeholder

theorem nameAtFront?_eq_none {text : List Char} (h : ¬ opening <+: text) :
    nameAtFront? text = none := by
  rw [Option.eq_none_iff_forall_ne_some]
  intro name hname
  obtain ⟨-, rest, rfl⟩ := nameAtFront?_eq_some_iff.1 hname
  exact h (opening_prefix_write name rest)

section Scan

theorem namesFrom_length_append (taken rest : List Char) :
    namesFrom taken.length (taken ++ rest) = namesFrom 0 rest := by
  induction taken with
  | nil => rfl
  | cons c taken ih => exact ih

theorem namesFrom_cons {c : Char} {rest : List Char} (h : nameAtFront? (c :: rest) = none) :
    namesFrom 0 (c :: rest) = namesFrom 0 rest := by
  rw [namesFrom, h]

theorem namesFrom_literal_append {text : List Char} (h : IsLiteral text) (rest : List Char) :
    namesFrom 0 (text ++ rest) = namesFrom 0 rest := by
  induction text with
  | nil => rfl
  | cons c text ih =>
    have hfront := nameAtFront?_eq_none (h.not_opening_prefix rest)
    exact (namesFrom_cons hfront).trans (ih h.tail)

theorem namesFrom_write_append {name : List Char} (h : IsName name) (rest : List Char) :
    namesFrom 0 (write name ++ rest) = name :: namesFrom 0 rest := by
  have hfront : nameAtFront? (write name ++ rest) = some name :=
    nameAtFront?_eq_some_iff.2 ⟨h, rest, rfl⟩
  have hskip : namesFrom (name.length + 3) ('{' :: name ++ ['}', '}'] ++ rest) =
      namesFrom 0 rest := by
    have hlength : name.length + 3 = ('{' :: name ++ ['}', '}']).length := by simp
    rw [hlength, namesFrom_length_append]
  have hwrite : write name ++ rest = '{' :: ('{' :: name ++ ['}', '}'] ++ rest) := rfl
  rw [hwrite] at hfront ⊢
  rw [namesFrom, hfront]
  exact congrArg (List.cons name) hskip

/-- A template is scanned for itself, whatever follows it. -/
theorem namesFrom_append {x : List Char} (hx : IsTemplate x) (y : List Char) :
    namesFrom 0 (x ++ y) = namesFrom 0 x ++ namesFrom 0 y := by
  induction hx with
  | nil => rfl
  | literal plain _ ih =>
    rw [List.append_assoc, namesFrom_literal_append plain, ih, namesFrom_literal_append plain]
  | placeholder named _ ih =>
    rw [List.append_assoc, namesFrom_write_append named, ih, namesFrom_write_append named,
      List.cons_append]

end Scan

/-- A place for a placeholder in a text: what stands before it, its name, and what stands after
it. -/
structure Site where
  before : List Char
  name : List Char
  after : List Char
deriving DecidableEq, Repr

namespace Site

/-- The text that has a site. -/
def text (site : Site) : List Char := site.before ++ write site.name ++ site.after

/-- The same site after more text has been put in front. -/
def behind (front : List Char) (site : Site) : Site := { site with before := front ++ site.before }

end Site

/-- The site that a text starts with. -/
def siteAtFront? (text : List Char) : Option Site :=
  (nameAtFront? text).map fun name => ⟨[], name, text.drop (write name).length⟩

/-- The sites of a text, told position by position. -/
def sites : List Char → List Site
  | [] => []
  | c :: rest => (siteAtFront? (c :: rest)).toList ++ (sites rest).map (Site.behind [c])

variable {text : List Char}

theorem siteAtFront?_write_append {name : List Char} (h : IsName name) (rest : List Char) :
    siteAtFront? (write name ++ rest) = some ⟨[], name, rest⟩ := by
  rw [siteAtFront?, nameAtFront?_eq_some_iff.2 ⟨h, rest, rfl⟩, Option.map_some, List.drop_left]

theorem siteAtFront?_eq_some_iff {site : Site} : siteAtFront? text = some site ↔
    site.before = [] ∧ IsName site.name ∧ site.text = text := by
  constructor
  · intro h
    obtain ⟨name, hname, -⟩ := Option.map_eq_some_iff.1 h
    obtain ⟨named, rest, rfl⟩ := nameAtFront?_eq_some_iff.1 hname
    rw [siteAtFront?_write_append named] at h
    obtain rfl := Option.some.inj h
    exact ⟨rfl, named, rfl⟩
  · rintro ⟨hbefore, named, rfl⟩
    obtain ⟨before, name, after⟩ := site
    obtain rfl : before = [] := hbefore
    exact siteAtFront?_write_append named after

theorem sites_cons {c : Char} {rest : List Char} (h : nameAtFront? (c :: rest) = none) :
    sites (c :: rest) = (sites rest).map (Site.behind [c]) := by
  rw [sites, siteAtFront?, h]
  rfl

theorem sites_literal_append (h : IsLiteral text) (rest : List Char) :
    sites (text ++ rest) = (sites rest).map (Site.behind text) := by
  induction text with
  | nil => exact (List.map_id _).symm
  | cons c text ih =>
    have hfront := nameAtFront?_eq_none (h.not_opening_prefix rest)
    rw [List.cons_append] at hfront ⊢
    rw [sites_cons hfront, ih h.tail, List.map_map]
    rfl

/-- No site starts inside a placeholder. -/
theorem sites_write_append {name : List Char} (h : IsName name) (rest : List Char) :
    sites (write name ++ rest) =
      ⟨[], name, rest⟩ :: (sites rest).map (Site.behind (write name)) := by
  have hfront := siteAtFront?_write_append h rest
  have hwrite : write name ++ rest = '{' :: ('{' :: name ++ ['}', '}'] ++ rest) := rfl
  rw [hwrite] at hfront ⊢
  rw [sites, hfront, sites_literal_append (isLiteral_write_tail h), List.map_map]
  rfl

/-- Every way of writing a text around a placeholder is one of its sites. -/
theorem mem_sites_iff {site : Site} :
    site ∈ sites text ↔ IsName site.name ∧ site.text = text := by
  induction text generalizing site with
  | nil => simp [sites, Site.text, write]
  | cons c rest ih =>
    rw [sites, List.mem_append, Option.mem_toList, siteAtFront?_eq_some_iff, List.mem_map]
    constructor
    · rintro (⟨-, named, htext⟩ | ⟨inner, hinner, rfl⟩)
      · exact ⟨named, htext⟩
      · obtain ⟨named, rfl⟩ := ih.1 hinner
        exact ⟨named, rfl⟩
    · rintro ⟨named, htext⟩
      obtain ⟨before, name, after⟩ := site
      -- With a character before it, the site is one of the rest.
      cases before with
      | nil => exact Or.inl ⟨rfl, named, htext⟩
      | cons d before =>
        obtain ⟨rfl, hrest⟩ := List.cons.inj htext
        exact Or.inr ⟨⟨before, name, after⟩, ih.2 ⟨named, hrest⟩, rfl⟩

theorem pairwise_sites (text : List Char) :
    (sites text).Pairwise fun s t => s.before.length < t.before.length := by
  induction text with
  | nil => exact List.Pairwise.nil
  | cons c rest ih =>
    rw [sites, List.pairwise_append, List.pairwise_map]
    refine ⟨?_, ?_, ?_⟩
    · cases siteAtFront? (c :: rest) <;> simp
    · exact ih.imp fun h => by simpa [Site.behind] using h
    · intro s hs t ht
      rw [Option.mem_toList] at hs
      obtain ⟨inner, -, rfl⟩ := List.mem_map.1 ht
      simp [(siteAtFront?_eq_some_iff.1 hs).1, Site.behind]

/-- A list of all ways of writing a text around a placeholder, in the order in which the
placeholders stand, none of them twice. -/
structure ListsSites (text : List Char) (listed : List Site) : Prop where
  complete : ∀ site : Site, site ∈ listed ↔ IsName site.name ∧ site.text = text
  ascending : listed.Pairwise fun s t => s.before.length < t.before.length

theorem listsSites_sites (text : List Char) : ListsSites text (sites text) :=
  ⟨fun _ => mem_sites_iff, pairwise_sites text⟩

/-- The scan finds the sites one after the other. -/
theorem namesFrom_eq_map_sites (text : List Char) :
    namesFrom 0 text = (sites text).map Site.name := by
  -- The induction is on the length, since the scan goes on behind the whole placeholder.
  induction hn : text.length using Nat.strongRecOn generalizing text with
  | ind n ih =>
    cases text with
    | nil => rfl
    | cons c rest =>
      cases hfront : nameAtFront? (c :: rest) with
      | none =>
        have hrest := ih rest.length (by simp [← hn]) rest rfl
        rw [namesFrom_cons hfront, sites_cons hfront, hrest, List.map_map]
        rfl
      | some name =>
        obtain ⟨named, behind, heq⟩ := nameAtFront?_eq_some_iff.1 hfront
        have hlength : behind.length < n := by
          rw [← hn, heq]
          simp [write]
          omega
        rw [heq, namesFrom_write_append named, sites_write_append named,
          ih behind.length hlength behind rfl, List.map_cons, List.map_map]
        rfl

example : names "{{{a}}}{{b{{}}c}}" = ["a", ""] := by decide +kernel

theorem mem_namesFrom_iff {name : List Char} : name ∈ namesFrom 0 text ↔ Occurs name text := by
  rw [namesFrom_eq_map_sites, List.mem_map]
  constructor
  · rintro ⟨site, hsite, rfl⟩
    obtain ⟨named, htext⟩ := mem_sites_iff.1 hsite
    exact ⟨named, site.before, site.after, htext.symm⟩
  · rintro ⟨named, before, after, rfl⟩
    exact ⟨⟨before, name, after⟩, mem_sites_iff.2 ⟨named, rfl⟩, rfl⟩

theorem mem_names_iff {name text : String} :
    name ∈ names text ↔ Occurs name.toList text.toList := by
  rw [names, ← mem_namesFrom_iff, List.mem_map]
  constructor
  · rintro ⟨found, hfound, rfl⟩
    rwa [String.toList_ofList]
  · intro h
    exact ⟨name.toList, h, String.ofList_toList⟩

end HighlightGrammar.Placeholder

import Expander.Proofs.Configuring.Sections

/-!
The text of a configuration.

What is written for a configuration reads back as the configuration, in one line, in indented lines
and in every other spelling, and so does every presentation of it. A text that gives a field twice
does not read as a configuration.
-/

set_option autoImplicit false

namespace Expander.Config

def schema : Schema := asSection.schema

variable {c : Config} {j : Json} {text : String}

theorem grammatical_toJson (c : Config) : c.toJson.Grammatical := asSection.codec.grammatical c

theorem ofJson?_restyle (fits : c.Fits) (h : Restyle schema c.toJson j) : ofJson? j = some c :=
  asSection.restyle h (asSection.read_write fits)

theorem ofJson?_doubled (h : Doubled schema j) : ofJson? j = none := asSection.doubled h

theorem parse_ok (spelled : j.Spelled text) (read : ofJson? j = some c) : parse text = .ok c := by
  rw [parse, Json.parse_spelled spelled, Option.bind_some, read]

theorem parse_malformed (spelled : j.Spelled text) (read : ofJson? j = none) :
    parse text = .error .malformed := by
  rw [parse, Json.parse_spelled spelled, Option.bind_some, read]

/-- A configuration reads back from what is written for it and from every text that presents the
same; a text that gives a field twice, under whichever of its names, is malformed. -/
theorem parse_presentation (fits : c.Fits) :
    (parse c.toJson.render = .ok c ∧ parse c.toJson.pretty = .ok c) ∧
      (∀ {j text}, Restyle schema c.toJson j → j.Spelled text → parse text = .ok c) ∧
      ∀ {j text}, Doubled schema j → j.Spelled text → parse text = .error .malformed := by
  have grammatical := grammatical_toJson c
  have restyled {j : Json} {text : String} (h : Restyle schema c.toJson j)
      (spelled : j.Spelled text) : parse text = .ok c :=
    parse_ok spelled (ofJson?_restyle fits h)
  refine ⟨⟨?_, ?_⟩, restyled, fun h spelled => parse_malformed spelled (ofJson?_doubled h)⟩
  · exact restyled .refl (Json.spelled_render grammatical)
  · exact restyled .refl (Json.spelled_pretty grammatical)

/-- The members that state defaults are left out, and the topology goes by its other name. -/
theorem parse_presentation_controller :
    ({ topology := .controller } : Config).Fits ∧
      parse (Json.object [(some "topology", .text "ControllerOnly")]).render =
        .ok { topology := .controller } ∧
      parse (Json.object [(some "topology", .null), (some "topology", .null)]).render =
        .error .malformed := by
  let c : Config := { topology := .controller }
  have default := asSection.default_fits {} rfl
  have fits : c.Fits :=
    ⟨default.system, default.bridge, default.device, default.controller, default.media⟩
  obtain ⟨-, restyled, doubled⟩ := parse_presentation fits
  have field (place : Nat) {f : FieldName × Schema × Option Json}
      (found : (fields.map (·.entry (some {})))[place]? = some f) :
      f ∈ fields.map (·.entry (some {})) := List.mem_of_getElem? found
  have last : Restyle schema c.toJson _ := .permute (List.perm_append_singleton _ _).symm
  have alone : Restyle schema c.toJson (.object [(some "topology", .text "Controller")]) :=
    last.trans <| .trans (.leave (field 1 rfl) rfl .refl) <|
      .trans (.leave (field 2 rfl) rfl .refl) <| .trans (.leave (field 3 rfl) rfl .refl) <|
      .trans (.leave (field 4 rfl) rfl .refl) <| .leave (field 5 rfl) rfl .refl
  have other : Restyle schema c.toJson (.object [(some "topology", .text "ControllerOnly")]) :=
    alone.trans (.inside (field 0 rfl) rfl (.name List.mem_cons_self))
  have twice : Doubled schema
      (.object ([] ++ (some "topology", .null) :: ([] ++ [(some "topology", .null)]))) :=
    .here (field 0 rfl) rfl rfl
  refine ⟨fits, restyled other (Json.spelled_render ?_), doubled twice (Json.spelled_render ?_)⟩
  · exact .object (List.forall_mem_singleton.2 (.string _))
  · exact .object (List.forall_mem_cons.2 ⟨.null, List.forall_mem_singleton.2 .null⟩)

end Expander.Config

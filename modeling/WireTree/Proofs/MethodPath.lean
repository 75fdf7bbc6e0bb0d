import Mathlib.Data.List.TakeDrop
import Mathlib.Data.List.TakeWhile
import WireTree.Proofs.Succeeding

/-!
# Methods by their paths

A path finds a method just if it asks for its full name and the method name has no point in it: the last point of the
path is then the one between the two names. The messages of a method are kept as they were given, so they may be in the
schema or not; only the references of fields are looked at before they are stored.
-/

namespace WireTree

namespace MethodPath

/-- The full name that a path asks for. -/
def fullName (path : String) : String := String.ofList (normalize path.toList)

/-! ### The last point -/

theorem split?_eq_some_iff {path front last : List Char} :
    split? path = some (front, last) ↔ path = front ++ '.' :: last ∧ '.' ∉ last := by
  have hspan := List.span_eq_takeWhile_dropWhile (p := (· != '.')) path.reverse
  constructor
  · intro h
    have happend := List.takeWhile_append_dropWhile (p := (· != '.')) (l := path.reverse)
    cases hrest : path.reverse.dropWhile (· != '.') with
    | nil =>
      rw [split?, hspan, hrest] at h
      cases h
    | cons point rest =>
      have hne : path.reverse.dropWhile (· != '.') ≠ [] := by simp [hrest]
      have hpoint : point = '.' := by simpa [hrest] using List.head_dropWhile_not (· != '.') hne
      rw [split?, hspan, hrest] at h
      simp only [Option.some.injEq, Prod.mk.injEq] at h
      obtain ⟨hfront, hlast⟩ := h
      constructor
      · rw [hrest, hpoint] at happend
        calc path = (path.reverse.takeWhile (· != '.') ++ '.' :: rest).reverse := by
              rw [happend, List.reverse_reverse]
          _ = rest.reverse ++ '.' :: (path.reverse.takeWhile (· != '.')).reverse := by simp
          _ = front ++ '.' :: last := by rw [hfront, hlast]
      · rw [← hlast, List.mem_reverse]
        intro hmem
        simpa using List.mem_takeWhile_imp hmem
  · rintro ⟨rfl, hlast⟩
    have hall : ∀ char ∈ last.reverse, (char != '.') = true := by
      intro char hchar
      rw [bne_iff_ne]
      rintro rfl
      exact hlast (List.mem_reverse.1 hchar)
    have hpath : (front ++ '.' :: last).reverse = last.reverse ++ '.' :: front.reverse := by simp
    rw [split?, hspan, hpath, List.takeWhile_append_of_pos hall, List.dropWhile_append_of_pos hall]
    simp

/-! ### Slashes -/

theorem normalize_slash (path : List Char) : normalize ('/' :: path) = normalize path := rfl

theorem map_eq_self_of_notMem {path : List Char} (hslash : '/' ∉ path) :
    (path.map fun char => if char = '/' then '.' else char) = path := by
  refine (List.map_congr_left fun char hchar => ?_).trans (List.map_id path)
  exact if_neg (ne_of_mem_of_not_mem hchar hslash)

theorem normalize_append {front : List Char} (hfront : front ≠ []) (hslash : '/' ∉ front) (rest : List Char) :
    normalize (front ++ rest) = front ++ rest.map fun char => if char = '/' then '.' else char := by
  have hsame := map_eq_self_of_notMem hslash
  obtain ⟨first, front, rfl⟩ := List.exists_cons_of_ne_nil hfront
  have hfirst : first ≠ '/' := ne_of_mem_of_not_mem List.mem_cons_self hslash
  rw [normalize, List.cons_append, List.dropWhile_cons_of_neg (by simpa using hfirst), ← List.cons_append,
    List.map_append, hsame]

section Names

variable {service method : String}

theorem fullName_point (hservice : '/' ∉ service.toList) (hmethod : '/' ∉ method.toList) :
    fullName (service ++ "." ++ method) = service ++ "." ++ method := by
  have hslash : '/' ∉ (service ++ "." ++ method).toList := by simp [hservice, hmethod]
  have hne : (service ++ "." ++ method).toList ≠ [] := by simp
  have hnormalize := normalize_append hne hslash []
  rw [List.append_nil, List.map_nil, List.append_nil] at hnormalize
  rw [fullName, hnormalize, String.ofList_toList]

theorem fullName_slash (hname : service ≠ "") (hservice : '/' ∉ service.toList) (hmethod : '/' ∉ method.toList) :
    fullName ("/" ++ service ++ "/" ++ method) = service ++ "." ++ method := by
  have hne : service.toList ≠ [] := by simpa using hname
  have hsame := map_eq_self_of_notMem hmethod
  have hpath : ("/" ++ service ++ "/" ++ method).toList = '/' :: (service.toList ++ '/' :: method.toList) := by simp
  rw [fullName, hpath, normalize_slash, normalize_append hne hservice, List.map_cons, hsame, if_pos rfl]
  rw [← String.toList_inj]
  simp

end Names

end MethodPath

namespace IndexedSchema

variable {indexed : IndexedSchema}

/-! ### Finding methods -/

theorem Exact.methodAt?_eq_some_iff (h : indexed.Exact) {path : String} {service : IndexedService} {method : Method} :
    indexed.methodAt? path = some (service, method) ↔
      service ∈ indexed.services ∧ method ∈ service.service.methods ∧ '.' ∉ method.name.toList ∧
        MethodPath.fullName path = service.service.fullName ++ "." ++ method.name := by
  have hname : MethodPath.fullName path = service.service.fullName ++ "." ++ method.name ↔
      MethodPath.normalize path.toList = service.service.fullName.toList ++ '.' :: method.name.toList := by
    rw [← String.toList_inj, MethodPath.fullName]
    simp
  rw [hname]
  constructor
  · intro hfound
    simp only [methodAt?, Option.bind_eq_bind, Option.bind_eq_some_iff, Option.pure_def, Option.some.injEq,
      Prod.mk.injEq] at hfound
    obtain ⟨⟨front, last⟩, hsplit, found, hservice, found', hmethod, rfl, rfl⟩ := hfound
    obtain ⟨hpath, hlast⟩ := MethodPath.split?_eq_some_iff.1 hsplit
    obtain ⟨hmem, hfront⟩ := h.serviceNamed?_eq_some_iff.1 hservice
    obtain ⟨place, hplace⟩ := List.mem_iff_getElem?.1 hmem
    obtain ⟨hmem', hname⟩ := (h.services _ _ hplace).methodNamed?_eq_some_iff.1 hmethod
    rw [hfront, hname, String.toList_ofList, String.toList_ofList]
    exact ⟨hmem, hmem', hlast, hpath⟩
  · rintro ⟨hmem, hmem', hlast, hpath⟩
    obtain ⟨place, hplace⟩ := List.mem_iff_getElem?.1 hmem
    have hsplit := MethodPath.split?_eq_some_iff.2 ⟨hpath, hlast⟩
    have hservice : indexed.serviceNamed? service.service.fullName = some service :=
      h.serviceNamed?_eq_some_iff.2 ⟨hmem, rfl⟩
    have hmethod : service.methodNamed? method.name = some method :=
      (h.services _ _ hplace).methodNamed?_eq_some_iff.2 ⟨hmem', rfl⟩
    simp [methodAt?, hsplit, hservice, hmethod]

theorem Exact.methodAt?_schema (h : indexed.Exact) (path : String) :
    indexed.schema.methodAt? path =
      (indexed.methodAt? path).map fun (service, method) => (service.service, method) := by
  rw [Schema.methodAt?, methodAt?]
  cases MethodPath.split? (MethodPath.normalize path.toList) with
  | none => rfl
  | some parts =>
    obtain ⟨front, last⟩ := parts
    simp only [Option.bind_eq_bind, Option.bind_some, h.serviceNamed?_schema]
    cases hservice : indexed.serviceNamed? (String.ofList front) with
    | none => rfl
    | some service =>
      obtain ⟨hmem, -⟩ := h.serviceNamed?_eq_some_iff.1 hservice
      obtain ⟨place, hplace⟩ := List.mem_iff_getElem?.1 hmem
      simp only [Option.map_some, Option.bind_some, (h.services _ _ hplace).methodNamed?_service]
      cases service.methodNamed? (String.ofList last) <;> rfl

theorem Exact.fullName_of_methodAt? (h : indexed.Exact) {path : String} {service : IndexedService} {method : Method}
    (hfound : indexed.methodAt? path = some (service, method)) : method.fullName = MethodPath.fullName path := by
  obtain ⟨hmem, hmem', -, hname⟩ := h.methodAt?_eq_some_iff.1 hfound
  obtain ⟨place, hplace⟩ := List.mem_iff_getElem?.1 hmem
  rw [hname, (h.services _ _ hplace).fullName method hmem']

/-- **A path finds just the method of its full name**, in any schema that steps build, and a method whose own name has a
point is never found. If the name of the service is not empty and both names have no slashes, the full name finds the
method, and so does the path with slashes. -/
theorem methodAt?_build (steps : List BuildStep) :
    let indexed := build steps
    (∀ path service method, indexed.methodAt? path = some (service, method) ↔
      service ∈ indexed.services ∧ method ∈ service.service.methods ∧ '.' ∉ method.name.toList ∧
        MethodPath.fullName path = service.service.fullName ++ "." ++ method.name) ∧
    (∀ path service method, indexed.methodAt? path = some (service, method) →
      method.fullName = MethodPath.fullName path) ∧
    (∀ service ∈ indexed.services, '/' ∉ service.service.fullName.toList → ∀ method ∈ service.service.methods,
      '.' ∉ method.name.toList → '/' ∉ method.name.toList →
        indexed.methodAt? (service.service.fullName ++ "." ++ method.name) = some (service, method) ∧
        (service.service.fullName ≠ "" →
          indexed.methodAt? ("/" ++ service.service.fullName ++ "/" ++ method.name) = some (service, method))) ∧
    ∀ path, (Schema.build steps).methodAt? path =
      (indexed.methodAt? path).map fun (service, method) => (service.service, method) := by
  intro indexed
  have hexact : indexed.Exact := exact_build steps
  refine ⟨fun _ _ _ => hexact.methodAt?_eq_some_iff, fun _ _ _ => hexact.fullName_of_methodAt?,
    fun service hservice hslash method hmethod hpoint hslash' => ⟨?_, fun hname => ?_⟩, fun path => ?_⟩
  · have hfull := MethodPath.fullName_point hslash hslash'
    exact hexact.methodAt?_eq_some_iff.2 ⟨hservice, hmethod, hpoint, hfull⟩
  · have hfull := MethodPath.fullName_slash hname hslash hslash'
    exact hexact.methodAt?_eq_some_iff.2 ⟨hservice, hmethod, hpoint, hfull⟩
  · rw [← schema_build]
    exact hexact.methodAt?_schema path

/-- A full name and a path with slashes find the same method. The other method has a point in its name and is not found,
though its full name is asked for. -/
theorem methodAt?_build_package :
    let indexed := build [.insertMessage "Proto.Request", .insertService "Proto.Fish",
      .addMethod ⟨0⟩ "Swim" ⟨0⟩ ⟨0⟩, .addMethod ⟨0⟩ "Swim.Fast" ⟨0⟩ ⟨0⟩]
    let swim : Method := ⟨"Swim", "Proto.Fish.Swim", ⟨0⟩, ⟨0⟩⟩
    let fast : Method := ⟨"Swim.Fast", "Proto.Fish.Swim.Fast", ⟨0⟩, ⟨0⟩⟩
    let fish : IndexedService := ⟨⟨"Proto.Fish", ⟨0⟩, [swim, fast]⟩, [("Swim", 0), ("Swim.Fast", 1)]⟩
    fish ∈ indexed.services ∧ indexed.methodAt? "Proto.Fish.Swim" = some (fish, swim) ∧
      indexed.methodAt? "/Proto.Fish/Swim" = some (fish, swim) ∧ indexed.methodAt? "Proto.Fish.Swim.Fast" = none := by
  intro indexed swim fast fish
  have hfish : fish ∈ indexed.services := by decide
  obtain ⟨-, -, hnames, -⟩ := methodAt?_build [.insertMessage "Proto.Request", .insertService "Proto.Fish",
    .addMethod ⟨0⟩ "Swim" ⟨0⟩ ⟨0⟩, .addMethod ⟨0⟩ "Swim.Fast" ⟨0⟩ ⟨0⟩]
  obtain ⟨hpoint, hslash⟩ := hnames fish hfish (by decide) swim (by decide) (by decide) (by decide)
  refine ⟨hfish, hpoint, hslash (by decide), ?_⟩
  decide

/-! ### The messages of methods -/

theorem Exact.message?_iff (h : indexed.Exact) (ref : MessageRef) :
    (∃ message, indexed.message? ref = some message ∧ message.type.ref = ref) ↔ ref.index < indexed.messages.length := by
  refine ⟨fun ⟨message, hmessage, _⟩ => (List.getElem?_eq_some_iff.1 hmessage).1, fun hlt => ?_⟩
  have hmessage : indexed.message? ref = some indexed.messages[ref.index] := List.getElem?_eq_getElem hlt
  exact ⟨_, hmessage, (h.messages _ _ hmessage).ref⟩

theorem addMethod_mem_of_methodAt? (steps : List BuildStep) {path : String} {service : IndexedService} {method : Method}
    (hfound : (build steps).methodAt? path = some (service, method)) :
    .addMethod service.service.ref method.name method.input method.output ∈ steps := by
  have hexact := exact_build steps
  obtain ⟨hmem, hmem', -, -⟩ := hexact.methodAt?_eq_some_iff.1 hfound
  obtain ⟨index, hindex⟩ := List.mem_iff_getElem?.1 hmem
  obtain ⟨place, hplace⟩ := List.mem_iff_getElem?.1 hmem'
  have hservice : (build steps).service? service.service.ref = some service := by
    rw [(hexact.services _ _ hindex).ref]
    exact hindex
  exact step_mem_of_has steps ((hexact.methods_eq_some_iff hservice).1 hplace).1

/-- **The messages of a method are in the schema just if its step refers to messages that are there.** The step is done
either way, unlike one that adds a field: so if all steps that add methods refer to messages of the schema, the messages
of every method that is found are there, while the type of a field always is. -/
theorem methodAt?_messages (steps : List BuildStep) :
    let indexed := build steps
    (∀ path service method, indexed.methodAt? path = some (service, method) →
      .addMethod service.service.ref method.name method.input method.output ∈ steps ∧
      ∀ ref ∈ [method.input, method.output],
        (∃ message, indexed.message? ref = some message ∧ message.type.ref = ref) ↔
          ref.index < indexed.messages.length) ∧
    ((∀ target name input output, .addMethod target name input output ∈ steps →
        input.index < indexed.messages.length ∧ output.index < indexed.messages.length) →
      ∀ path service method, indexed.methodAt? path = some (service, method) →
        ∀ ref ∈ [method.input, method.output], ∃ message, indexed.message? ref = some message ∧ message.type.ref = ref) ∧
    ∀ target message, indexed.message? target = some message → ∀ number field, message.field? number = some field →
      ∀ ref, field.typeRef = some ref → ref.Fits indexed.messages.length indexed.enums.length field.type := by
  intro indexed
  have hexact : indexed.Exact := exact_build steps
  refine ⟨fun path service method hfound => ?_, fun hrefs path service method hfound ref href => ?_,
    fun target message hmessage => (hexact.messages _ _ hmessage).typeRef⟩
  · exact ⟨addMethod_mem_of_methodAt? steps hfound, fun ref _ => hexact.message?_iff ref⟩
  · obtain ⟨hinput, houtput⟩ := hrefs _ _ _ _ (addMethod_mem_of_methodAt? steps hfound)
    rw [hexact.message?_iff]
    simp only [List.mem_cons, List.not_mem_nil, or_false] at href
    rcases href with rfl | rfl
    · exact hinput
    · exact houtput

theorem methodAt?_messages_fish :
    let indexed := build [.insertMessage "Proto.Request", .insertService "Proto.Fish", .addMethod ⟨0⟩ "Swim" ⟨0⟩ ⟨0⟩]
    ∃ service method, indexed.methodAt? "Proto.Fish.Swim" = some (service, method) ∧
      (∃ input, indexed.message? method.input = some input ∧ input.type.ref = method.input) ∧
      ∃ output, indexed.message? method.output = some output ∧ output.type.ref = method.output := by
  intro indexed
  obtain ⟨-, hmessages, -⟩ := methodAt?_messages [.insertMessage "Proto.Request", .insertService "Proto.Fish",
    .addMethod ⟨0⟩ "Swim" ⟨0⟩ ⟨0⟩]
  have hfound : ∃ service method, indexed.methodAt? "Proto.Fish.Swim" = some (service, method) := ⟨_, _, rfl⟩
  obtain ⟨service, method, hfound⟩ := hfound
  have hrefs := hmessages ?_ _ service method hfound
  · exact ⟨service, method, hfound, hrefs _ List.mem_cons_self, hrefs _ (List.mem_cons_of_mem _ List.mem_cons_self)⟩
  · intro target name input output hmem
    obtain ⟨-, -, rfl, rfl⟩ : target = ⟨0⟩ ∧ name = "Swim" ∧ input = ⟨0⟩ ∧ output = ⟨0⟩ := by simpa using hmem
    decide

/-- A method of a service in a schema without messages: both steps succeed, and the method is found. -/
theorem methodAt?_without_messages :
    let steps : List BuildStep := [.insertService "S", .addMethod ⟨0⟩ "M" ⟨0⟩ ⟨0⟩]
    Succeeds steps ∧ ∃ service method, (build steps).methodAt? "S.M" = some (service, method) ∧
      (build steps).message? method.input = none ∧ (build steps).message? method.output = none := by
  refine ⟨by decide, _, _, rfl, rfl, rfl⟩

end IndexedSchema

end WireTree

import CMakeLint.Check
import CMakeLint.Link.Manual
import CMakeLint.Pattern.Call
import CMakeLint.Terminal

/-!
The checks of this linter, in the order in which they run.
-/
namespace CMakeLint.Check

/-- A piece of a description: words, or code that is emphasised. -/
inductive Phrase where
  | words (s : String)
  | code (s : String)
  deriving Repr

/-- A description from its pieces. -/
def describe (phrases : List Phrase) : Text :=
  phrases.flatMap fun
    | .words s => s.toList
    | .code s => Terminal.emphasis s.toList

/-- A rule with patterns that tell upper from lower case. -/
def matchingRule (patterns : List Pattern) (group : Nat) (exempt : Option Pattern) : Rule :=
  .matching { patterns, ignoreCase := false, group, exempt }

def minimumVersion : Check where
  name := "specify_minimum_cmake_version".toList
  description := describe [.words "scripts which contain a ", .code "project()", .words " should specify a ",
    .code "cmake_minimum_required()", .words " before it"]
  replacement := none
  sample := sampleGrid? "cmake_minimum_required(VERSION 3.16)\n\nproject(\n    # ...\n)".toList
  references := [Link.cmakeMinimumRequired]
  rule := .minimumVersion

def systemKeyword : Check where
  name := "target_include_directories_system".toList
  description := describe [.words "the ", .code "SYSTEM",
    .words " specifier must be the first non-target argument passed to ", .code "target_include_directories()"]
  replacement := none
  sample := sampleGrid?
    "target_include_directories(my_lib\n\tSYSTEM\n\tINTERFACE\n\t\t$<INSTALL_INTERFACE:include>\n)".toList
  references := [Link.targetIncludeDirectories]
  rule := .systemKeyword

def projectVersion : Check where
  name := "specify_project_version".toList
  description := describe [.code "project()", .words " should specify a ", .code "VERSION"]
  replacement := none
  sample := none
  references := [Link.project]
  rule := matchingRule [.callWithArguments "project"] 1 (some (.anyWord ["VERSION"]))

/-- The commands that take a dependency scope. -/
def scopedCommands : List String :=
  ["target_link_options", "target_link_libraries", "target_compile_options", "target_compile_features",
    "target_compile_definitions", "target_include_directories", "target_link_directories"]

def targetScope : Check where
  name := "specify_scope_on_target_functions".toList
  description := describe [.code "\\1()", .words " should specify at least one dependency scope (", .code "PRIVATE",
    .words ", ", .code "INTERFACE", .words " or ", .code "PUBLIC", .words ")"]
  replacement := none
  sample := none
  references := [Link.scopes, Link.effectiveModernCMake]
  rule := matchingRule [.callNamedWithArguments scopedCommands] 2 (some (.anyWord ["PRIVATE", "PUBLIC", "INTERFACE"]))

def rpath : Check where
  name := "use_set_target_properties_rpath".toList
  description := describe [.words "rpaths should be set using ", .code "set_target_properties()", .words " and ",
    .code "INSTALL_RPATH"]
  replacement := some (.link Link.setTargetProperties)
  sample := sampleGrid? ("get_target_property(my_current_rpaths my_lib INSTALL_RPATH)\n" ++
    "list(APPEND my_current_rpaths \"/opt/lib\")\n" ++
    "set_target_properties(my_lib PROPERTIES INSTALL_RPATH \"$\x7bmy_current_rpaths\x7d\")").toList
  references := [Link.installRpath]
  rule := matchingRule [.group 1 (.word "-Wl,-rpath=")] 1 none

def positionIndependentCode : Check where
  name := "use_set_target_properties_pic".toList
  description := describe [.words "position-independent code should be set per-target using ",
    .code "set_target_properties()", .words " and ", .code "POSITION_INDEPENDENT_CODE"]
  replacement := some (.link Link.setTargetProperties)
  sample := sampleGrid? "set_target_properties(my_lib PROPERTIES POSITION_INDEPENDENT_CODE ON)".toList
  references := [Link.positionIndependentCode]
  rule := matchingRule [.callContaining "set" ["CMAKE_POSITION_INDEPENDENT_CODE"]] 1 none

def compileDefinitions : Check where
  name := "use_target_compile_definitions".toList
  description := describe [.words "compiler defines should be set on a per-target basis using ",
    .code "target_compile_definitions()"]
  replacement := some (.link Link.targetCompileDefinitions)
  sample := none
  references := [Link.effectiveModernCMake]
  rule := matchingRule [.callNamed ["add_compile_definitions", "add_definitions"]] 1 none

def languageStandard : Check where
  name := "use_target_compile_features_language_standard".toList
  description := describe [.words "language standard level should be set on a per-target basis using ",
    .code "target_compile_features()"]
  replacement := some (.link Link.targetCompileFeatures)
  sample := none
  references := [Link.cxxKnownFeatures, Link.cKnownFeatures]
  rule := matchingRule [.callContaining "set_target_properties" ["CXX_STANDARD", "C_STANDARD"],
    .setVariable (.sequence [.edge, .group 1 (.words ["CMAKE_CXX_STANDARD", "CMAKE_C_STANDARD"])])] 1 none

def compileOptions : Check where
  name := "use_target_compile_options".toList
  description := describe [.words "compiler options should be set on a per-target basis using ",
    .code "target_compile_options()"]
  replacement := some (.link Link.targetCompileOptions)
  sample := none
  references := [Link.effectiveModernCMake]
  rule := matchingRule [.callNamed ["add_compile_options"],
    .setVariable (.group 1 (.words ["CMAKE_CXX_FLAGS", "CMAKE_C_FLAGS"]))] 1 none

def includeDirectories : Check where
  name := "use_target_include_directories".toList
  description := describe [.words "include paths should be set on a per-target basis using ",
    .code "target_include_directories()"]
  replacement := some (.link Link.targetIncludeDirectories)
  sample := none
  references := [Link.effectiveModernCMake]
  rule := matchingRule [.callNamed ["include_directories"]] 1 none

def linkDirectories : Check where
  name := "use_target_link_libraries".toList
  description := describe [.words "linker paths should be inherited from library targets using ",
    .code "target_link_libraries()"]
  replacement := some (.link Link.targetLinkLibraries)
  sample := none
  references := [Link.effectiveModernCMake]
  rule := matchingRule [.callNamed ["link_directories"]] 1 none

def threadsPackage : Check where
  name := "use_threads_package".toList
  description := describe [.words "support for threading should be provided by linking with ", .code "Threads::Threads",
    .words " from the ", .code "Threads", .words " package"]
  replacement := some (.text "Threads::Threads".toList)
  sample := sampleGrid?
    "find_package(Threads REQUIRED)\\ntarget_link_libraries(my_lib PUBLIC Threads::Threads)".toList
  references := [Link.findThreads, Link.findPackage]
  rule := matchingRule [.callContaining "target_link_libraries" ["pthread"]] 1 none

def externalProjectArguments : Check where
  name := "external_project_add_cmake_args".toList
  description := describe [.code "ExternalProject_Add()", .words " variable definitions specified via ", .code "CMAKE_ARGS",
    .words " must not have a space after ", .code "-D",
    .words " (use quotes around the entire argument if the RHS might have whitespace)"]
  replacement := none
  sample := sampleGrid? ("ExternalProject_Add(\n\tsome_lib\n\tSOURCE_DIR\n\t\t\"some_lib/source\"\n\tCMAKE_ARGS\n\t\t" ++
    "\"-DCMAKE_CXX_COMPILER=$\x7b\x7bCMAKE_CXX_COMPILER\x7d\x7d\"\n)").toList
  references := [Link.externalProject]
  rule := matchingRule [.externalProjectDefinition] 1 none

def libraryType : Check where
  name := "specify_library_type".toList
  description := describe [.code "add_library()", .words " should specify the library type (one of ", .code "STATIC",
    .words ", ", .code "SHARED", .words ", ", .code "MODULE", .words ", ", .code "OBJECT", .words ", ", .code "INTERFACE",
    .words ", ", .code "IMPORTED", .words ", ", .code "ALIAS", .words ")"]
  replacement := none
  sample := none
  references := [Link.addLibrary, Link.effectiveModernCMake]
  rule := matchingRule [.callWithArguments "add_library"] 1
    (some (.anyWord ["STATIC", "SHARED", "MODULE", "OBJECT", "INTERFACE", "IMPORTED", "ALIAS"]))

/-- All checks. -/
def catalog : List Check :=
  [minimumVersion, systemKeyword, projectVersion, targetScope, rpath, positionIndependentCode, compileDefinitions,
    languageStandard, compileOptions, includeDirectories, linkDirectories, threadsPackage, externalProjectArguments,
    libraryType]

end CMakeLint.Check

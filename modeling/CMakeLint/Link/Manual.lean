import CMakeLint.Link

/-!
The pages to which checks refer.
-/
namespace CMakeLint.Link

/-- A page of the CMake manual. -/
def manualPage (page : String) : Link :=
  ofUri ("https://cmake.org/cmake/help/latest/" ++ page ++ ".html").toList

/-- A page with a title. -/
def titled (title uri : String) : Link :=
  ⟨uri.toList, some title.toList⟩

def cKnownFeatures : Link := manualPage "prop_gbl/CMAKE_C_KNOWN_FEATURES"
def cxxKnownFeatures : Link := manualPage "prop_gbl/CMAKE_CXX_KNOWN_FEATURES"
def externalProject : Link := manualPage "module/ExternalProject"
def effectiveModernCMake : Link :=
  titled "Effective Modern CMake" "https://gist.github.com/mbinna/c61dbb39bca0e4fb7d1f73b0d66a4fd1"
def findPackage : Link := manualPage "command/find_package"
def scopes : Link :=
  titled "Public vs. Private vs. Interface" "https://leimao.github.io/blog/CMake-Public-Private-Interface/"
def project : Link := manualPage "command/project"
def setTargetProperties : Link := manualPage "command/set_target_properties"
def targetCompileDefinitions : Link := manualPage "command/target_compile_definitions"
def targetCompileFeatures : Link := manualPage "command/target_compile_features"
def targetCompileOptions : Link := manualPage "command/target_compile_options"
def targetIncludeDirectories : Link := manualPage "command/target_include_directories"
def targetLinkLibraries : Link := manualPage "command/target_link_libraries"
def addLibrary : Link := manualPage "command/add_library"
def cmakeMinimumRequired : Link :=
  titled "cmake_minimum_required()" "https://cmake.org/cmake/help/latest/command/cmake_minimum_required.html"
def installRpath : Link := manualPage "prop_tgt/INSTALL_RPATH"
def positionIndependentCode : Link := manualPage "prop_tgt/POSITION_INDEPENDENT_CODE"
def findThreads : Link := manualPage "module/FindThreads"

/-- The pages that have a key. -/
def keyed : List (String × Link) :=
  [("CMAKE_C_KNOWN_FEATURES", cKnownFeatures), ("CMAKE_CXX_KNOWN_FEATURES", cxxKnownFeatures),
    ("ExternalProject", externalProject), ("effective_modern_cmake", effectiveModernCMake),
    ("find_package", findPackage), ("private_public_interface", scopes), ("project", project),
    ("set_target_properties", setTargetProperties), ("target_compile_definitions", targetCompileDefinitions),
    ("target_compile_features", targetCompileFeatures), ("target_compile_options", targetCompileOptions),
    ("target_include_directories", targetIncludeDirectories), ("target_link_libraries", targetLinkLibraries),
    ("add_library", addLibrary)]

end CMakeLint.Link

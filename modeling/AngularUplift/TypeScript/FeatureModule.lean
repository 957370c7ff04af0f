import AngularUplift.TypeScript.Member

/-!
# Feature modules

The module that declares a component or provides a service, with support for several languages when it is wanted.
-/

namespace AngularUplift

/-! ### Support for several languages, which modules and specs share -/

namespace Localisation

/-- The imports that support for several languages needs. -/
def imports : List Text :=
  [importLine [txt "HttpClient", txt "HttpClientModule"] (txt "@angular/common/http"),
    importLine [txt "TranslateLoader", txt "TranslateModule"] (txt "@ngx-translate/core"),
    importLine [txt "TranslateHttpLoader"] (txt "@ngx-translate/http-loader")]

/-- The factory that loads the texts of a language. -/
def loaderFactory : List Text :=
  [opens (txt "export function HttpLoaderFactory(http: HttpClient)"),
    txt "return new TranslateHttpLoader(http);",
    txt "\x7d"]

/-- The module imports that support for several languages needs, by the way the module for it is set up. -/
def moduleImports (setup : Text) : List Text :=
  [txt "TranslateModule." ++ setup ++ txt "(\x7b",
    txt "loader: \x7b",
    txt "provide: TranslateLoader,",
    txt "useFactory: HttpLoaderFactory,",
    txt "deps: [HttpClient]",
    txt "\x7d",
    txt "\x7d),",
    txt "HttpClientModule,"]

end Localisation

/-- A feature module. -/
structure FeatureModule where
  /-- The name of its class. -/
  className : Text
  /-- The names that it imports, with their files. -/
  imports : List (Text × Text) := []
  /-- The framework modules that it imports. -/
  angularModules : List Text := [txt "CommonModule"]
  /-- What it declares. -/
  declarations : List Text := []
  /-- What it offers to others. -/
  exports : List Text := []
  /-- What it provides. -/
  providers : List Text := []
  /-- Whether it supports several languages. -/
  i18n : Bool := false
deriving DecidableEq, Repr

namespace FeatureModule

/-- The module of a component. -/
def forComponent (className component file : Text) (i18n : Bool) : FeatureModule :=
  { className, imports := [(component, file)], angularModules := [txt "CommonModule", txt "FormsModule"]
    declarations := [component], exports := [component], i18n }

/-- The module of a service. -/
def forService (className service file : Text) (i18n : Bool) : FeatureModule :=
  { className, imports := [(service, file)], providers := [service], i18n }

/-- A list of names in square brackets. -/
def nameList (names : List Text) : Text := ['['] ++ Text.join (txt ", ") names ++ [']']

/-- The source of a feature module. -/
def source (m : FeatureModule) : Text :=
  layout <| Text.unlines <|
    [importLine [txt "NgModule"] (txt "@angular/core"),
      importLine [txt "CommonModule"] (txt "@angular/common")] ++
    (if m.angularModules.elem (txt "FormsModule") then
      [importLine [txt "FormsModule"] (txt "@angular/forms")] else []) ++
    (if m.i18n then Localisation.imports else []) ++
    m.imports.map (fun (name, path) => importLine [name] path) ++
    (if m.i18n then [] :: Localisation.loaderFactory else []) ++
    [[], txt "@NgModule(\x7b", txt "imports: ["] ++
    m.angularModules.map (· ++ [',']) ++
    (if m.i18n then Localisation.moduleImports (txt "forChild") else []) ++
    [txt "],",
      txt "declarations: " ++ nameList m.declarations ++ [','],
      txt "exports: " ++ nameList m.exports ++ [','],
      txt "providers: " ++ nameList m.providers,
      txt "\x7d)",
      txt "export class " ++ m.className ++ txt " \x7b \x7d"]

end FeatureModule

end AngularUplift

import UnitCache.CommandLine.Run

/-! The files that a run looks at.

What a run looks at depends on what it finds: a configuration names a database, a
database names source files, and these name others. A snapshot of a disk shows a run
all it asks for once every path named here has been looked up, and each lookup can
only name more. -/

namespace UnitCache.CommandLine

/-- Where the configuration may be, as seen from the working directory. -/
def configPaths (flags : GlobalFlags) (here : Path) : List Path :=
  match flags.config with
  | some path => [here.join ⟨path⟩]
  | none => here.ancestors.map (·.join ⟨Config.fileName⟩)

/-- A source file, the files it is known to include, and every file that a directive in one of them
may stand for. -/
def unitPaths (commands : CommandDatabase) (disk : Disk) (source : Path) : List Path :=
  let search := SearchDirectories.ofArguments (Closure.directoryOf source)
    (commands.compileArguments source)
  let files : VisibleFiles := ⟨disk, []⟩
  (source :: (Closure.ofMain files search source).includes).flatMap fun file =>
    file :: (Closure.inclusions ((files.text? file).getD "")).flatMap
      (search.candidateFiles (Closure.directoryOf file))

/-- The source files that a command may parse, of those requested and those listed. -/
def parsedPaths (command : Command) (commands : CommandDatabase) (disk : Disk) : List Path :=
  match command with
  | .sources _ => []
  | .lookup paths _ =>
    (paths.map Path.mk ++ commands.listedSources).map disk.absolute |>.filter fun path =>
      (FileRole.ofPath path).isSource

/-- Every path that a run looks at, as far as the files known so far tell. -/
def watchedPaths (arguments : List String) (disk : Disk) : List Path :=
  match Invocation.ofArguments arguments, disk.workingDirectory with
  | .ok ⟨flags, command⟩, some location =>
    configPaths flags (Disk.pathOf location) ++
      match (Project.find flags disk).1 with
      | .error _ => []
      | .ok project =>
        project.databasePath flags ::
          match (project.database flags disk).1 with
          | .error _ => []
          | .ok commands =>
            (parsedPaths command commands disk).flatMap (unitPaths commands disk)
  | _, _ => []

end UnitCache.CommandLine

import FirmwareBuild.Main
import FirmwareBuild.Path.Normal
import FirmwareBuild.Preferences.Store
import FirmwareBuild.Proofs.Entries
import FirmwareBuild.Proofs.Host.Action
import FirmwareBuild.Proofs.Preferences.Resolution
import FirmwareBuild.Proofs.Recipe.Pieces
import FirmwareBuild.Proofs.Recipe.Templating
import FirmwareBuild.Proofs.CommandLine
import FirmwareBuild.Proofs.Recipe.Pattern
import FirmwareBuild.Proofs.Recipe.Run
import FirmwareBuild.Proofs.Native.Compiler
import FirmwareBuild.Proofs.Host.Course
import FirmwareBuild.Proofs.Project.Order
import FirmwareBuild.Proofs.Host.FileTree
import FirmwareBuild.Proofs.Host.Files
import FirmwareBuild.Proofs.Json.RoundTrip
import FirmwareBuild.Proofs.Target.Descriptor
import FirmwareBuild.Proofs.BoardTool
import FirmwareBuild.Proofs.BuildConfig.Handoff
import FirmwareBuild.Proofs.BuildConfig.Texts
import FirmwareBuild.Proofs.CargoOptions
import FirmwareBuild.Proofs.Host.Environment
import FirmwareBuild.Proofs.Host.Reach
import FirmwareBuild.Proofs.Project.Libraries
import FirmwareBuild.Proofs.Project.Passes
import FirmwareBuild.Proofs.Preferences.Store
import FirmwareBuild.Proofs.LinkOptions
import FirmwareBuild.Proofs.Native.Bindings
import FirmwareBuild.Proofs.Host.Account
import FirmwareBuild.Proofs.Project.Account
import FirmwareBuild.Proofs.Cli
import FirmwareBuild.Proofs.CommandLine.Layout
import FirmwareBuild.Proofs.Board
import FirmwareBuild.Proofs.Native.Library
import FirmwareBuild.Proofs.Native.Objects
import FirmwareBuild.Proofs.CargoOptions.Reading
import FirmwareBuild.Proofs.Objcopy
import FirmwareBuild.Proofs.Project.Artifacts
import FirmwareBuild.Proofs.Config.Loading
import FirmwareBuild.Proofs.Target.Customization
import FirmwareBuild.Proofs.Objcopy.Outputs
import FirmwareBuild.Proofs.Source
import FirmwareBuild.Proofs.Native.Registration
import FirmwareBuild.Proofs.Text.Lines
import FirmwareBuild.Proofs.Preferences.Lines
import FirmwareBuild.Proofs.Preferences.Independence
import FirmwareBuild.Proofs.Board.Grammar
import FirmwareBuild.Proofs.Board.Settings
import FirmwareBuild.Proofs.LinkOptions.Spelling
import FirmwareBuild.Proofs.Target.Names
import FirmwareBuild.Proofs.Recipe.Warnings
import FirmwareBuild.Proofs.Json.Grammar
import FirmwareBuild.Proofs.Json.Numeral
import FirmwareBuild.Proofs.Json.Spelling
import FirmwareBuild.Proofs.Json.Depth
import FirmwareBuild.Proofs.BuildConfig.Shape
import FirmwareBuild.Proofs.SearchList.Report
import FirmwareBuild.Proofs.CargoOptions.Separator
import FirmwareBuild.Proofs.BuildScript
